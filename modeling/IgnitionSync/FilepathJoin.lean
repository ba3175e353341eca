import IgnitionSync.Filepath

/-! What a cleaned path looks like, read off its normal form: where `..` can stand in it,
`Join` of a base with a path that does not climb, and `Dir` and `Base` of a base joined
with one plain name. -/
namespace IgnitionSync.Filepath

namespace Lexical

theorem rooted_foldl (es : List (List Char)) (s : Lexical) :
    (es.foldl push s).rooted = s.rooted := by
  induction es generalizing s <;> simp [*]

@[simp] theorem ofPath_rooted (p : List Char) : (ofPath p).rooted = isAbs p := by
  simp [ofPath, rooted_foldl, empty]

theorem sepFree_foldl {es : List (List Char)} (hes : ∀ e ∈ es, '/' ∉ e) {s : Lexical}
    (hs : ∀ x ∈ s.elems, '/' ∉ x) : ∀ x ∈ (es.foldl push s).elems, '/' ∉ x := by
  induction es generalizing s with
  | nil => exact hs
  | cons e es ih => exact ih (fun e' h => hes e' (by simp [h])) (sepFree_push hs (hes e (by simp)))

theorem ofPath_sepFree (p : List Char) : ∀ x ∈ (ofPath p).elems, '/' ∉ x :=
  sepFree_foldl (fun _ he => (mem_pathElems he).2) (fun _ h => absurd h (List.not_mem_nil _))

theorem mem_toElems_sep {s : Lexical} (hs : ∀ x ∈ s.elems, '/' ∉ x) {e : List Char}
    (he : e ∈ s.toElems) : e ≠ [] ∧ '/' ∉ e := by
  refine ⟨mem_toElems he, ?_⟩
  rcases List.mem_append.1 he with h | h
  · rw [List.eq_of_mem_replicate h]; simp
  · exact hs e (List.mem_reverse.1 h)

theorem pathElems_buffer {s : Lexical} (hs : ∀ x ∈ s.elems, '/' ∉ x) :
    pathElems s.buffer = s.toElems := by
  cases hr : s.rooted <;> simp [buffer, hr, pathElems_intercalate (fun _ => mem_toElems_sep hs)]

theorem buffer_eq_nil_iff (s : Lexical) : s.buffer = [] ↔ s.rooted = false ∧ s.toElems = [] := by
  constructor
  · intro h
    cases hr : s.rooted
    · by_contra ht
      exact intercalate_ne_nil (by simpa [hr] using ht) (fun _ => mem_toElems) (by simpa [buffer, hr] using h)
    · simp [buffer, hr] at h
  · rintro ⟨hr, ht⟩
    simp [buffer, hr, ht, List.intercalate]

theorem dotdot_mem_toElems_iff (s : Lexical) : ['.', '.'] ∈ s.toElems ↔ 0 < s.ups := by
  have hreal : ['.', '.'] ∉ s.elems := fun h => (s.elems_real _ h).2.2 rfl
  simp [toElems, List.mem_replicate, hreal, Nat.pos_iff_ne_zero]

/-- A `..` stands in a rendered normal form exactly when it has leading `..` elements. -/
theorem dotdot_mem_render_iff {s : Lexical} (hs : ∀ x ∈ s.elems, '/' ∉ x) :
    ['.', '.'] ∈ pathElems s.render ↔ 0 < s.ups := by
  rw [← dotdot_mem_toElems_iff]
  by_cases hb : s.buffer = []
  · have ht := ((buffer_eq_nil_iff s).1 hb).2
    simp [render, hb, ht, pathElems_of_not_mem]
  · simp [render, hb, pathElems_buffer hs]

/-- With a leading `..`, an unrooted rendering is `..` or starts with `../`. -/
theorem render_of_ups {s : Lexical} (hr : s.rooted = false) (hu : 0 < s.ups) :
    s.render = ['.', '.'] ∨ ['.', '.', '/'] <+: s.render := by
  obtain ⟨n, hn⟩ := Nat.exists_eq_add_of_lt hu
  have ht : s.toElems = ['.', '.'] :: (List.replicate n ['.', '.'] ++ s.elems.reverse) := by
    simp [toElems, hn, List.replicate_succ]
  have hb : s.buffer ≠ [] := fun h => by simp [(buffer_eq_nil_iff s).1 h |>.2] at ht
  simp only [render, hb, if_false]
  rw [buffer, hr, ht]
  by_cases hrest : List.replicate n ['.', '.'] ++ s.elems.reverse = []
  · left; simp [hrest, List.intercalate]
  · right
    rw [show ['.', '.'] :: (List.replicate n ['.', '.'] ++ s.elems.reverse) =
      [['.', '.']] ++ (List.replicate n ['.', '.'] ++ s.elems.reverse) from rfl,
      intercalate_append (List.cons_ne_nil _ _) hrest]
    exact ⟨['/'].intercalate (List.replicate n ['.', '.'] ++ s.elems.reverse),
      by simp [List.intercalate]⟩

theorem ups_le_up (s : Lexical) : s.ups ≤ s.up.ups := by
  unfold up; split
  · exact le_rfl
  · split <;> simp

theorem ups_le_push (s : Lexical) (e : List Char) : s.ups ≤ (s.push e).ups := by
  unfold push; split_ifs <;> simp [ups_le_up]

theorem ups_le_foldl (es : List (List Char)) (s : Lexical) : s.ups ≤ (es.foldl push s).ups := by
  induction es generalizing s with
  | nil => exact le_rfl
  | cons e es ih => exact (ups_le_push s e).trans (ih _)

/-- Elements that never climb above their unrooted start act on any `s` as they act on
that start, above `s`'s own elements. -/
theorem foldl_push_shift (es : List (List Char)) {s t : Lexical} {base : List (List Char)}
    (ht : t.rooted = false) (hst : s.elems = t.elems ++ base)
    (hups : (es.foldl push t).ups = t.ups) :
    (es.foldl push s).elems = (es.foldl push t).elems ++ base ∧
      (es.foldl push s).ups = s.ups := by
  induction es generalizing s t with
  | nil => exact ⟨hst, rfl⟩
  | cons e es ih =>
    simp only [List.foldl_cons] at hups ⊢
    have hle := ups_le_foldl es (t.push e)
    have hle' := ups_le_push t e
    by_cases h₁ : e = [] ∨ e = ['.']
    · simp only [push, dif_pos h₁] at hups ⊢
      exact ih ht hst hups
    by_cases h₂ : e = ['.', '.']
    · subst h₂
      simp only [push_dotdot] at hups hle hle' ⊢
      rcases htl : t.elems with _ | ⟨x, rest⟩
      · have := (up_of_nil htl ht).2
        omega
      · have hs' : s.elems = x :: (rest ++ base) := by simp [hst, htl]
        obtain ⟨ht₁, ht₂⟩ := up_of_cons htl
        obtain ⟨hs₁, hs₂⟩ := up_of_cons hs'
        obtain ⟨h₃, h₄⟩ := @ih s.up t.up (by simpa using ht) (by rw [hs₁, ht₁]) (by omega)
        exact ⟨h₃, h₄.trans hs₂⟩
    · have he : RealElem e := ⟨fun h => h₁ (.inl h), fun h => h₁ (.inr h), h₂⟩
      obtain ⟨ht₁, ht₂⟩ : (t.push e).elems = e :: t.elems ∧ (t.push e).ups = t.ups :=
        push_of_real he
      obtain ⟨hs₁, hs₂⟩ : (s.push e).elems = e :: s.elems ∧ (s.push e).ups = s.ups :=
        push_of_real he
      obtain ⟨h₃, h₄⟩ := @ih (s.push e) (t.push e) (by simpa using ht)
        (by rw [hs₁, ht₁, hst]; rfl) (by omega)
      exact ⟨h₃, h₄.trans hs₂⟩

theorem ofPath_append_sep {a : List Char} (ha : a ≠ []) (b : List Char) :
    ofPath (a ++ '/' :: b) = (pathElems b).foldl push (ofPath a) := by
  have habs : isAbs (a ++ '/' :: b) = isAbs a := by
    obtain ⟨c, r, rfl⟩ := List.exists_cons_of_ne_nil ha
    simp [isAbs_cons]
  rw [ofPath, ofPath, pathElems_append_sep, List.foldl_append, habs]

theorem render_of_buffer {s : Lexical} (hb : s.buffer ≠ []) : s.render = s.buffer := by
  simp [render, hb]

theorem isAbs_buffer {s : Lexical} (hs : ∀ x ∈ s.elems, '/' ∉ x) : isAbs s.buffer = s.rooted := by
  cases hr : s.rooted
  · simp only [buffer, hr, if_false, Bool.false_eq_true, List.nil_append]
    rcases ht : s.toElems with _ | ⟨e, rest⟩
    · rfl
    · obtain ⟨he, hes⟩ := mem_toElems_sep hs (ht ▸ List.mem_cons_self e rest)
      obtain ⟨c, r, rfl⟩ := List.exists_cons_of_ne_nil he
      have hc : c ≠ '/' := fun h => hes (h ▸ List.mem_cons_self _ _)
      by_cases hrest : rest = []
      · simp [hrest, List.intercalate, isAbs_cons, hc]
      · rw [show (c :: r) :: rest = [c :: r] ++ rest from rfl, intercalate_append
          (List.cons_ne_nil _ _) hrest]
        simp [List.intercalate, isAbs_cons, hc]
  · simp [buffer, hr, isAbs]

theorem foldl_push_replicate (n : Nat) {t : Lexical} (ht : t.rooted = false) (he : t.elems = []) :
    ((List.replicate n ['.', '.']).foldl push t).ups = t.ups + n ∧
      ((List.replicate n ['.', '.']).foldl push t).elems = [] := by
  induction n generalizing t with
  | zero => exact ⟨rfl, he⟩
  | succ n ih =>
    obtain ⟨h₁, h₂⟩ := up_of_nil he ht
    obtain ⟨h₃, h₄⟩ := @ih t.up (by simpa using ht) h₁
    simp only [List.replicate_succ, List.foldl_cons, push_dotdot]
    exact ⟨by omega, h₄⟩

theorem foldl_push_real (l : List (List Char)) (hl : ∀ e ∈ l, RealElem e) (t : Lexical) :
    (l.foldl push t).elems = l.reverse ++ t.elems ∧ (l.foldl push t).ups = t.ups := by
  induction l generalizing t with
  | nil => exact ⟨rfl, rfl⟩
  | cons e l ih =>
    obtain ⟨h₁, h₂⟩ : (t.push e).elems = e :: t.elems ∧ (t.push e).ups = t.ups :=
      push_of_real (hl e (List.mem_cons_self e l))
    obtain ⟨h₃, h₄⟩ := ih (fun e' he' => hl e' (List.mem_cons_of_mem e he')) (t.push e)
    simp only [List.foldl_cons, h₃, h₁, h₄, h₂, List.reverse_cons, List.append_assoc,
      List.singleton_append, and_self]

/-- Pushing a normal form's own elements rebuilds it. -/
theorem foldl_toElems (s : Lexical) : s.toElems.foldl push (empty s.rooted) = s := by
  have hreal := foldl_push_real s.elems.reverse (fun e he => s.elems_real e (List.mem_reverse.1 he))
  have hrep : ((List.replicate s.ups ['.', '.']).foldl push (empty s.rooted)).ups = s.ups ∧
      ((List.replicate s.ups ['.', '.']).foldl push (empty s.rooted)).elems = [] := by
    cases hr : s.rooted
    · have h := @foldl_push_replicate s.ups (empty false) rfl rfl
      simpa [empty] using h
    · simp [s.ups_of_rooted hr, empty]
  obtain ⟨h₁, h₂⟩ := hreal ((List.replicate s.ups ['.', '.']).foldl push (empty s.rooted))
  rw [toElems, List.foldl_append]
  ext1
  · rw [rooted_foldl, rooted_foldl]; rfl
  · rw [h₂, hrep.1]
  · rw [h₁, hrep.2]; simp

theorem ofPath_buffer {s : Lexical} (hs : ∀ x ∈ s.elems, '/' ∉ x) : ofPath s.buffer = s := by
  rw [ofPath, pathElems_buffer hs, isAbs_buffer hs, foldl_toElems]

/-- `Clean` leaves a rendered normal form as it is. -/
theorem clean_buffer {s : Lexical} (hs : ∀ x ∈ s.elems, '/' ∉ x) : clean s.buffer = s.render := by
  rw [clean_eq_cleanSpec, cleanSpec, ofPath_buffer hs]

theorem pathElems_render {s : Lexical} (hs : ∀ x ∈ s.elems, '/' ∉ x) (hb : s.buffer ≠ []) :
    pathElems s.render = s.toElems := by
  rw [render_of_buffer hb, pathElems_buffer hs]

theorem buffer_ne_nil_of_rooted {s : Lexical} (hr : s.rooted = true) : s.buffer ≠ [] := by
  simp [buffer, hr]

end Lexical

/-- `p` is `dir` or lies below it: `p` is absolute, and its path elements are those of `dir`
followed by elements none of which is `..`. -/
def IsWithin (dir p : List Char) : Prop :=
  isAbs p = true ∧ ∃ rest, pathElems p = pathElems dir ++ rest ∧ ∀ e ∈ rest, e ≠ ['.', '.']

theorem join_pair {a b : List Char} (ha : a ≠ []) : join [a, b] = clean (a ++ '/' :: b) := by
  simp [join, ha, List.intercalate]

/-- Joining an absolute base with an unrooted path whose cleaned form holds no `..` stays
at or below the cleaned base. -/
theorem join_isWithin {base rel : List Char} (hb : isAbs base = true) (hrel : isAbs rel = false)
    (hup : ['.', '.'] ∉ pathElems (clean rel)) : IsWithin (clean base) (join [base, rel]) := by
  have hne : base ≠ [] := by rintro rfl; simp [isAbs] at hb
  have hT : (Lexical.ofPath rel).ups = 0 := by
    rw [clean_eq_cleanSpec, cleanSpec, Lexical.dotdot_mem_render_iff (Lexical.ofPath_sepFree rel)]
      at hup
    omega
  have hT' : ((pathElems rel).foldl Lexical.push (Lexical.empty false)).ups =
      (Lexical.empty false).ups := by
    simpa [Lexical.ofPath, hrel] using hT
  let B := Lexical.ofPath base
  have hBr : B.rooted = true := by simp [B, hb]
  obtain ⟨hel, hups⟩ := @Lexical.foldl_push_shift (pathElems rel) B (Lexical.empty false)
    B.elems rfl rfl hT'
  let S := (pathElems rel).foldl Lexical.push B
  have hSr : S.rooted = true := by simp [S, Lexical.rooted_foldl, hBr]
  have hS : clean (base ++ '/' :: rel) = S.render := by
    rw [clean_eq_cleanSpec, cleanSpec, Lexical.ofPath_append_sep hne]
  have hSs : ∀ x ∈ S.elems, '/' ∉ x :=
    Lexical.sepFree_foldl (fun _ he => (mem_pathElems he).2) (Lexical.ofPath_sepFree base)
  rw [join_pair hne, hS, Lexical.render_of_buffer (Lexical.buffer_ne_nil_of_rooted hSr)]
  refine ⟨by rw [Lexical.isAbs_buffer hSs, hSr], ?_⟩
  let T := (pathElems rel).foldl Lexical.push (Lexical.empty false)
  refine ⟨T.elems.reverse, ?_, fun e he => (T.elems_real e (List.mem_reverse.1 he)).2.2⟩
  have hBu : (Lexical.ofPath base).ups = 0 := B.ups_of_rooted hBr
  rw [Lexical.pathElems_buffer hSs, clean_eq_cleanSpec, cleanSpec,
    Lexical.pathElems_render (Lexical.ofPath_sepFree base) (Lexical.buffer_ne_nil_of_rooted hBr)]
  simp only [Lexical.toElems, S, hups, hel, B, hBu, List.reverse_append, List.replicate_zero,
    List.nil_append]

theorem isAbs_of_not_mem {x : List Char} (hx : x ≠ []) (hs : '/' ∉ x) : isAbs x = false := by
  obtain ⟨c, r, rfl⟩ := List.exists_cons_of_ne_nil hx
  have hc : c ≠ '/' := fun h => hs (h ▸ List.mem_cons_self c r)
  simp [isAbs_cons, hc]

/-- Joining a plain name onto `L` pushes it onto `L`'s normal form. -/
theorem join_name (L : List Char) {x : List Char} (hx : RealElem x) (hs : '/' ∉ x) :
    join [L, x] = ((Lexical.ofPath L).push x).render := by
  by_cases hL : L = []
  · subst hL
    rw [join, if_pos rfl, join, if_neg hx.1, clean_eq_cleanSpec]
    simp [cleanSpec, Lexical.ofPath, pathElems_of_not_mem hx.1 hs, isAbs_of_not_mem hx.1 hs,
      List.intercalate, show isAbs [] = false from rfl]
  · rw [join_pair hL, clean_eq_cleanSpec, cleanSpec, Lexical.ofPath_append_sep hL,
      pathElems_of_not_mem hx.1 hs]
    rfl

namespace Lexical

theorem buffer_push_ne_nil (s : Lexical) {x : List Char} (hx : RealElem x) :
    (s.push x).buffer ≠ [] := by
  simp [buffer_push_real s hx, hx.1]

/-- The bytes before the pushed name end in a separator, or there are none. -/
theorem buffer_push_prefix (s : Lexical) {x : List Char} (hx : RealElem x) :
    ∃ P, (s.push x).buffer = P ++ x ∧ (P.reverse = [] ∨ P.reverse.head? = some '/') ∧
      (P.reverse.dropWhile (· != '/')).reverse =
        if s.toElems = [] then s.buffer else s.buffer ++ ['/'] := by
  refine ⟨s.buffer ++ (if s.toElems = [] then [] else ['/']), by rw [buffer_push_real s hx], ?_⟩
  by_cases ht : s.toElems = []
  · have hb : s.buffer = if s.rooted then ['/'] else [] := by simp [buffer, ht, List.intercalate]
    cases hr : s.rooted <;> simp [ht, hb, hr]
  · simp [ht]

end Lexical

/-- `Dir` of a normal form with one more name is the normal form's rendering. -/
theorem dir_render_push {s : Lexical} (hs : ∀ x ∈ s.elems, '/' ∉ x) {x : List Char}
    (hx : RealElem x) (hxs : '/' ∉ x) : dir (s.push x).render = s.render := by
  obtain ⟨P, hP, -, hdrop⟩ := s.buffer_push_prefix hx
  have hall : ∀ c ∈ x.reverse, (c != '/') = true := fun c hc =>
    by simpa using fun h : c = '/' => hxs (h ▸ List.mem_reverse.1 hc)
  rw [Lexical.render_of_buffer (s.buffer_push_ne_nil hx), dir, hP, List.reverse_append,
    List.dropWhile_append_of_pos hall, hdrop]
  split_ifs with ht
  · exact Lexical.clean_buffer hs
  · have hb : s.buffer ≠ [] := fun h => ht ((Lexical.buffer_eq_nil_iff s).1 h).2
    rw [clean_eq_cleanSpec, cleanSpec, Lexical.ofPath_append_sep hb, pathElems_nil,
      List.foldl_nil, Lexical.ofPath_buffer hs]

/-- `Base` of a normal form with one more name is that name. -/
theorem base_render_push (s : Lexical) {x : List Char} (hx : RealElem x) (hxs : '/' ∉ x) :
    base (s.push x).render = x := by
  obtain ⟨P, hP, hsep, -⟩ := s.buffer_push_prefix hx
  obtain ⟨c, r, hcr⟩ := List.exists_cons_of_ne_nil (List.reverse_ne_nil_iff.2 hx.1)
  have hc : c ≠ '/' := fun h => hxs (List.mem_reverse.1 (by simp [hcr, h]))
  have hall : ∀ c ∈ x.reverse, (c != '/') = true := fun c hc =>
    by simpa using fun h : c = '/' => hxs (h ▸ List.mem_reverse.1 hc)
  have htake := (takeWhile_dropWhile_of_sep hsep).1
  rw [Lexical.render_of_buffer (s.buffer_push_ne_nil hx), base, hP, if_neg (by simp [hx.1]),
    List.reverse_append, show (x.reverse ++ P.reverse).dropWhile (· == '/') =
      x.reverse ++ P.reverse by rw [hcr]; simp [hc], List.takeWhile_append_of_pos hall, htake]
  simp [hx.1]

/-- A name pushed onto a normal form changes its rendering. -/
theorem render_push_ne (s : Lexical) {x : List Char} (hx : RealElem x) :
    (s.push x).render ≠ s.render := by
  rw [Lexical.render_of_buffer (s.buffer_push_ne_nil hx), Lexical.buffer_push_real s hx]
  by_cases hb : s.buffer = []
  · have ht := ((Lexical.buffer_eq_nil_iff s).1 hb).2
    simpa [Lexical.render, hb, ht] using hx.2.1
  · rw [Lexical.render_of_buffer hb]
    intro h
    have := congrArg List.length h
    simp only [List.length_append] at this
    have : 0 < x.length := List.length_pos.2 hx.1
    omega

/-- Each of `validateResolvedPath`'s three string tests finds a `..` element. -/
theorem dotdot_mem_pathElems_of_test {t : List Char}
    (h : t = ['.', '.'] ∨ ['.', '.', '/'] <+: t ∨ ['/', '.', '.', '/'] <:+: t) :
    ['.', '.'] ∈ pathElems t := by
  rcases h with rfl | ⟨u, rfl⟩ | ⟨u, v, rfl⟩
  · decide
  · rw [show ['.', '.', '/'] ++ u = ['.', '.'] ++ '/' :: u from rfl, pathElems_append_sep]
    simp [pathElems_of_not_mem]
  · rw [show u ++ ['/', '.', '.', '/'] ++ v = u ++ '/' :: (['.', '.'] ++ '/' :: v) by simp,
      pathElems_append_sep, pathElems_append_sep]
    simp [pathElems_of_not_mem]

/-- `Clean` is idempotent: a cleaned path is its own normal form. -/
theorem clean_idempotent (p : List Char) : clean (clean p) = clean p := by
  rw [clean_eq_cleanSpec p, cleanSpec]
  by_cases hb : (Lexical.ofPath p).buffer = []
  · rw [Lexical.render, if_pos hb]
    decide
  · rw [Lexical.render_of_buffer hb, Lexical.clean_buffer (Lexical.ofPath_sepFree p),
      Lexical.render_of_buffer hb]

end IgnitionSync.Filepath
