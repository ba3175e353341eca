import Mathlib.Data.List.Infix

/-! Go's `path/filepath` on Unix, as `profile.go` uses it. A Go string is its list of bytes
(`List Char`; every byte the functions test is ASCII). `clean` is `Clean`'s byte loop with
its lazy buffer, `cleanSpec` says what it computes on path elements. -/
namespace IgnitionSync.Filepath

/-- `filepath.IsAbs`: the path starts with a separator. -/
def isAbs : List Char → Bool
  | '/' :: _ => true
  | _ => false

/-- `Clean`'s "add slash if needed" before a real element; `out` is the buffer, last byte
first. -/
def addSep (rooted : Bool) (out : List Char) : List Char :=
  if rooted && out.length != 1 || !rooted && out.length != 0 then '/' :: out else out

/-- The backtracking of a `..` element: `out.w--`, then drop bytes while `out.w > dotdot`
and the byte just dropped is not a separator. -/
def backtrack (dotdot : Nat) : List Char → List Char
  | [] => []
  | c :: out => if dotdot < out.length ∧ c ≠ '/' then backtrack dotdot out else out

mutual
/-- `Clean`'s outer loop over the bytes left to read, with the buffer `out` (last byte
first) and `dotdot`. The `switch` reads the next one to three bytes. -/
def cleanLoop (rooted : Bool) : List Char → List Char → Nat → List Char
  | [], out, _ => out
  | '/' :: r, out, dotdot => cleanLoop rooted r out dotdot
  | '.' :: '.' :: r, out, dotdot =>
    if r = [] ∨ r.head? = some '/' then
      if dotdot < out.length then cleanLoop rooted r (backtrack dotdot out) dotdot
      else if rooted then cleanLoop rooted r out dotdot
      else
        let out' := '.' :: '.' :: (if 0 < out.length then '/' :: out else out)
        cleanLoop rooted r out' out'.length
    else copyElem rooted r ('.' :: '.' :: addSep rooted out) dotdot
  | '.' :: r, out, dotdot =>
    if r = [] ∨ r.head? = some '/' then cleanLoop rooted r out dotdot
    else copyElem rooted r ('.' :: addSep rooted out) dotdot
  | c :: r, out, dotdot => copyElem rooted r (c :: addSep rooted out) dotdot
/-- The inner loop of a real element: copy bytes up to the next separator, which the outer
loop then skips. -/
def copyElem (rooted : Bool) : List Char → List Char → Nat → List Char
  | [], out, _ => out
  | c :: r, out, dotdot =>
    if c = '/' then cleanLoop rooted r out dotdot else copyElem rooted r (c :: out) dotdot
end

/-- `filepath.Clean`. A rooted path starts the buffer with its separator and `dotdot = 1`;
an empty result becomes `.`. -/
def clean : List Char → List Char
  | [] => ['.']
  | c :: r =>
    let out := if c = '/' then cleanLoop true r ['/'] 1 else cleanLoop false (c :: r) [] 0
    if out = [] then ['.'] else out.reverse

/-- `filepath.Join`: skip the leading empty elements, join the rest with separators and
clean; all empty gives the empty path. -/
def join : List (List Char) → List Char
  | [] => []
  | e :: es => if e = [] then join es else clean (['/'].intercalate (e :: es))

/-- `filepath.Dir`: clean everything up to and including the last separator. -/
def dir (path : List Char) : List Char :=
  clean (path.reverse.dropWhile (· != '/')).reverse

/-- `filepath.Base`: the last element once trailing separators are stripped; `.` for the
empty path and `/` for one made only of separators. -/
def base (path : List Char) : List Char :=
  if path = [] then ['.']
  else
    let last := ((path.reverse.dropWhile (· == '/')).takeWhile (· != '/')).reverse
    if last = [] then ['/'] else last

/-! ### Path elements and the normal form -/

/-- The path elements of `path`: the runs between separators, empty runs left out. -/
def pathElems (path : List Char) : List (List Char) :=
  (path.splitOn '/').filter (· ≠ [])

/-- An element `Clean` keeps as it is: neither empty, nor `.`, nor `..`. -/
def RealElem (e : List Char) : Prop := e ≠ [] ∧ e ≠ ['.'] ∧ e ≠ ['.', '.']

instance (e : List Char) : Decidable (RealElem e) := inferInstanceAs (Decidable (_ ∧ _))

/-- What `Clean` keeps of a path: whether it is rooted, the number of leading `..`
elements (none at a root) and the real elements after them, last first. -/
@[ext] structure Lexical where
  rooted : Bool
  ups : Nat
  elems : List (List Char)
  ups_of_rooted : rooted = true → ups = 0
  elems_real : ∀ e ∈ elems, RealElem e

/-- The normal form of the empty path. -/
def Lexical.empty (rooted : Bool) : Lexical :=
  ⟨rooted, 0, [], fun _ => rfl, fun _ h => absurd h (List.not_mem_nil _)⟩

/-- A `..` element: it removes the last real element, or with none left is kept in front,
or dropped at a root. -/
def Lexical.up (s : Lexical) : Lexical :=
  match h : s.elems with
  | _ :: rest =>
    { s with elems := rest, elems_real := fun e he => s.elems_real e (by simp [h, he]) }
  | [] =>
    if hr : s.rooted then s
    else { s with ups := s.ups + 1, ups_of_rooted := fun h' => absurd h' hr }

/-- One element as `Clean`'s loop meets it. -/
def Lexical.push (s : Lexical) (e : List Char) : Lexical :=
  if h₁ : e = [] ∨ e = ['.'] then s
  else if h₂ : e = ['.', '.'] then s.up
  else
    { s with elems := e :: s.elems,
             elems_real := List.forall_mem_cons.2
               ⟨⟨fun h => h₁ (.inl h), fun h => h₁ (.inr h), h₂⟩, s.elems_real⟩ }

/-- The elements of the normal form in path order. -/
def Lexical.toElems (s : Lexical) : List (List Char) :=
  List.replicate s.ups ['.', '.'] ++ s.elems.reverse

/-- The bytes `Clean` has written for `s`, in order. -/
def Lexical.buffer (s : Lexical) : List Char :=
  (if s.rooted then ['/'] else []) ++ ['/'].intercalate s.toElems

/-- `Clean`'s result for `s`. -/
def Lexical.render (s : Lexical) : List Char :=
  if s.buffer = [] then ['.'] else s.buffer

/-- `Clean`'s `dotdot` index for `s`: just past the root, or past the leading `..`
elements. -/
def Lexical.dotdot (s : Lexical) : Nat :=
  if s.rooted then 1 else (['/'].intercalate (List.replicate s.ups ['.', '.'])).length

/-- The normal form of `path`: its elements pushed in order. -/
def Lexical.ofPath (path : List Char) : Lexical :=
  (pathElems path).foldl Lexical.push (Lexical.empty (isAbs path))

/-- What `Clean` computes: the rendering of the normal form. -/
def cleanSpec (path : List Char) : List Char := (Lexical.ofPath path).render

/-! ### Splitting at separators -/

theorem splitOn_append_sep (a b : List Char) :
    (a ++ '/' :: b).splitOn '/' = a.splitOn '/' ++ b.splitOn '/' := by
  induction a with
  | nil => simp [List.splitOn]
  | cons x a ih =>
    simp only [List.splitOn] at ih ⊢
    by_cases hx : x = '/'
    · simp [hx, ih]
    · obtain ⟨h, t, ht⟩ := List.exists_cons_of_ne_nil (List.splitOnP_ne_nil (· == '/') a)
      simp [hx, ih, ht]

theorem pathElems_append_sep (a b : List Char) :
    pathElems (a ++ '/' :: b) = pathElems a ++ pathElems b := by
  simp only [pathElems, splitOn_append_sep, List.filter_append]

@[simp] theorem pathElems_nil : pathElems [] = [] := rfl

@[simp] theorem pathElems_sep (r : List Char) : pathElems ('/' :: r) = pathElems r := by
  simpa using pathElems_append_sep [] r

theorem pathElems_of_not_mem {e : List Char} (he : e ≠ []) (hs : '/' ∉ e) : pathElems e = [e] := by
  rw [pathElems, List.splitOn, List.splitOnP_eq_single _ _ (fun x hx h => hs (by rw [beq_iff_eq] at h; exact h ▸ hx))]
  simp [he]


theorem pathElems_cons {c : Char} (hc : c ≠ '/') (r : List Char) :
    pathElems (c :: r) = (c :: r.takeWhile (· != '/')) :: pathElems (r.dropWhile (· != '/')) := by
  have hsplit := List.takeWhile_append_dropWhile (· != '/') r
  have hnot : '/' ∉ c :: r.takeWhile (· != '/') := by
    intro hm
    rcases List.mem_cons.1 hm with h | h
    · exact hc h.symm
    · simpa using List.mem_takeWhile_imp h
  cases hd : r.dropWhile (· != '/') with
  | nil =>
    rw [hd, List.append_nil] at hsplit
    conv_lhs => rw [← hsplit]
    rw [pathElems_of_not_mem (List.cons_ne_nil _ _) hnot, pathElems_nil]
  | cons d rest =>
    have hdsep : d = '/' := by
      have := List.head_dropWhile_not (· != '/') r (by simp [hd])
      simpa [hd] using this
    subst hdsep
    rw [hd] at hsplit
    conv_lhs => rw [← hsplit, ← List.cons_append, pathElems_append_sep,
      pathElems_of_not_mem (List.cons_ne_nil _ _) hnot]
    simp


theorem not_mem_of_mem_splitOn {l e : List Char} (h : e ∈ l.splitOn '/') : '/' ∉ e := by
  induction l generalizing e with
  | nil => simp [List.splitOn] at h; simp [h]
  | cons x l ih =>
    simp only [List.splitOn, List.splitOnP_cons] at h ih
    split_ifs at h with hx
    · rcases List.mem_cons.1 h with rfl | h
      · simp
      · exact ih h
    · obtain ⟨a, t, ht⟩ := List.exists_cons_of_ne_nil (List.splitOnP_ne_nil (· == '/') l)
      rw [ht, List.modifyHead_cons] at h
      rcases List.mem_cons.1 h with rfl | h
      · have ha : '/' ∉ a := ih (by simp [ht])
        simp only [beq_iff_eq] at hx
        simp [Ne.symm hx, ha]
      · exact ih (by simp [ht, h])

theorem mem_pathElems {p e : List Char} (h : e ∈ pathElems p) : e ≠ [] ∧ '/' ∉ e := by
  rw [pathElems, List.mem_filter] at h
  exact ⟨by simpa using h.2, not_mem_of_mem_splitOn h.1⟩

theorem intercalate_append {as bs : List (List Char)} (ha : as ≠ []) (hb : bs ≠ []) :
    ['/'].intercalate (as ++ bs) = ['/'].intercalate as ++ '/' :: ['/'].intercalate bs := by
  obtain ⟨b, bs, rfl⟩ := List.exists_cons_of_ne_nil hb
  induction as with
  | nil => exact absurd rfl ha
  | cons a as ih =>
    cases as with
    | nil => simp [List.intercalate]
    | cons a' as =>
      simp only [List.cons_append, List.intercalate, List.intersperse_cons_cons,
        List.flatten_cons] at ih ⊢
      rw [ih (List.cons_ne_nil _ _)]
      simp

theorem intercalate_append_one {es : List (List Char)} (h : es ≠ []) (e : List Char) :
    ['/'].intercalate (es ++ [e]) = ['/'].intercalate es ++ '/' :: e := by
  rw [intercalate_append h (List.cons_ne_nil e [])]; simp [List.intercalate]

theorem pathElems_intercalate {es : List (List Char)} (h : ∀ e ∈ es, e ≠ [] ∧ '/' ∉ e) :
    pathElems (['/'].intercalate es) = es := by
  by_cases hne : es = []
  · subst hne; rfl
  · rw [pathElems, List.splitOn_intercalate es '/' (fun l hl => (h l hl).2) hne]
    exact List.filter_eq_self.2 (fun e he => by simpa using (h e he).1)

namespace Lexical

@[simp] theorem up_rooted (s : Lexical) : s.up.rooted = s.rooted := by
  unfold up; split
  · rfl
  · split <;> rfl

@[simp] theorem push_rooted (s : Lexical) (e : List Char) : (s.push e).rooted = s.rooted := by
  unfold push; split_ifs <;> simp

theorem up_of_cons {s : Lexical} {e : List Char} {rest : List (List Char)} (h : s.elems = e :: rest) :
    s.up.elems = rest ∧ s.up.ups = s.ups := by
  unfold up; split <;> simp_all

theorem up_of_nil_rooted {s : Lexical} (h : s.elems = []) (hr : s.rooted = true) : s.up = s := by
  unfold up; split <;> simp_all

theorem up_of_nil {s : Lexical} (h : s.elems = []) (hr : s.rooted = false) :
    s.up.elems = [] ∧ s.up.ups = s.ups + 1 := by
  unfold up; split <;> simp_all

theorem push_of_real {s : Lexical} {e : List Char} (he : RealElem e) :
    (s.push e).elems = e :: s.elems ∧ (s.push e).ups = s.ups := by
  obtain ⟨h1, h2, h3⟩ := he
  simp [push, h1, h2, h3]

theorem push_dot (s : Lexical) : s.push ['.'] = s := by simp [push]

theorem push_dotdot (s : Lexical) : s.push ['.', '.'] = s.up := by simp [push]

theorem mem_toElems {s : Lexical} {e : List Char} (h : e ∈ s.toElems) : e ≠ [] := by
  rcases List.mem_append.1 h with h | h
  · rw [List.eq_of_mem_replicate h]; simp
  · exact (s.elems_real e (List.mem_reverse.1 h)).1

theorem toElems_push_real {s : Lexical} {e : List Char} (he : RealElem e) :
    (s.push e).toElems = s.toElems ++ [e] := by
  simp [toElems, push_of_real he]

theorem intercalate_ne_nil {es : List (List Char)} (hne : es ≠ []) (h : ∀ e ∈ es, e ≠ []) :
    ['/'].intercalate es ≠ [] := by
  obtain ⟨a, rest, rfl⟩ := List.exists_cons_of_ne_nil hne
  cases rest with
  | nil => simpa [List.intercalate] using h a (by simp)
  | cons b rest => simp [List.intercalate]

theorem buffer_push_real (s : Lexical) {e : List Char} (he : RealElem e) :
    (s.push e).buffer = s.buffer ++ (if s.toElems = [] then [] else ['/']) ++ e := by
  unfold buffer
  rw [toElems_push_real he, push_rooted]
  by_cases h : s.toElems = []
  · simp [h, List.intercalate]
  · rw [intercalate_append_one h]; simp [h]

theorem addSep_buffer (s : Lexical) :
    addSep s.rooted s.buffer.reverse =
      if s.toElems = [] then s.buffer.reverse else '/' :: s.buffer.reverse := by
  by_cases h : s.toElems = []
  · cases hr : s.rooted <;> simp [addSep, buffer, h, hr, List.intercalate]
  · have hne := intercalate_ne_nil h (fun _ => mem_toElems)
    cases hr : s.rooted <;> simp [addSep, buffer, h, hr, hne]

theorem buffer_length_of_nil {s : Lexical} (h : s.elems = []) : s.buffer.length = s.dotdot := by
  cases hr : s.rooted
  · simp [buffer, dotdot, toElems, h, hr]
  · simp [buffer, dotdot, toElems, h, hr, s.ups_of_rooted hr, List.intercalate]

theorem up_push_of_cons {s : Lexical} {e : List Char} {rest : List (List Char)}
    (h : s.elems = e :: rest) : s.up.push e = s := by
  have he := s.elems_real e (by simp [h])
  obtain ⟨h1, h2⟩ := up_of_cons h
  ext1
  · simp
  · rw [(push_of_real he).2, h2]
  · rw [(push_of_real he).1, h1, h]

theorem dotdot_up_of_cons {s : Lexical} {e : List Char} {rest : List (List Char)}
    (h : s.elems = e :: rest) : s.up.dotdot = s.dotdot := by
  simp [dotdot, (up_of_cons h).2]

theorem dotdot_le_buffer_length (s : Lexical) : s.dotdot ≤ s.buffer.length := by
  cases hr : s.rooted
  · simp only [dotdot, buffer, hr, toElems, if_false, Bool.false_eq_true, List.nil_append]
    by_cases hu : s.ups = 0
    · simp [hu, List.intercalate]
    by_cases he : s.elems = []
    · simp [he]
    · rw [intercalate_append (by simpa using hu) (by simpa using he), List.length_append]
      omega
  · simp [dotdot, buffer, hr]

theorem elems_eq_nil_of_toElems {s : Lexical} (h : s.toElems = []) : s.elems = [] := by
  simpa [toElems] using (List.append_eq_nil.1 h).2

theorem buffer_of_cons {s : Lexical} {e : List Char} {rest : List (List Char)}
    (h : s.elems = e :: rest) :
    s.buffer = s.up.buffer ++ (if s.up.toElems = [] then [] else ['/']) ++ e := by
  rw [← buffer_push_real s.up (s.elems_real e (by simp [h])), up_push_of_cons h]

theorem dotdot_lt_iff (s : Lexical) : s.dotdot < s.buffer.length ↔ s.elems ≠ [] := by
  refine ⟨fun hlt h => by rw [buffer_length_of_nil h] at hlt; omega, fun h => ?_⟩
  obtain ⟨e, rest, h⟩ := List.exists_cons_of_ne_nil h
  have he : 0 < e.length := List.length_pos.2 (s.elems_real e (by simp [h])).1
  have hle := s.up.dotdot_le_buffer_length
  rw [buffer_of_cons h, ← dotdot_up_of_cons h]
  simp only [List.length_append]
  omega

end Lexical

theorem backtrack_sep {x rest : List Char} (hx : x ≠ []) (hs : '/' ∉ x) {d : Nat}
    (hd : d ≤ rest.length) : backtrack d (x ++ '/' :: rest) = rest := by
  induction x with
  | nil => exact absurd rfl hx
  | cons c x ih =>
    have hc : c ≠ '/' := fun h => hs (h ▸ List.mem_cons_self _ _)
    rw [List.cons_append, backtrack, if_pos ⟨by simp; omega, hc⟩]
    cases x with
    | nil => simp [backtrack]
    | cons c' x => exact ih (List.cons_ne_nil _ _) (fun h => hs (List.mem_cons_of_mem _ h))

theorem backtrack_base {x rest : List Char} (hx : x ≠ []) (hs : '/' ∉ x) {d : Nat}
    (hd : rest.length = d) : backtrack d (x ++ rest) = rest := by
  induction x with
  | nil => exact absurd rfl hx
  | cons c x ih =>
    cases x with
    | nil => simp [backtrack, hd]
    | cons c' x =>
      have hc : c ≠ '/' := fun h => hs (h ▸ List.mem_cons_self _ _)
      rw [List.cons_append, backtrack, if_pos ⟨by simp; omega, hc⟩]
      exact ih (List.cons_ne_nil _ _) (fun h => hs (List.mem_cons_of_mem _ h))

namespace Lexical

theorem backtrack_buffer {s : Lexical} {e : List Char} {rest : List (List Char)}
    (h : s.elems = e :: rest) (hs : '/' ∉ e) :
    backtrack s.dotdot s.buffer.reverse = s.up.buffer.reverse := by
  have he : e.reverse ≠ [] := by simpa using (s.elems_real e (by simp [h])).1
  have hs' : '/' ∉ e.reverse := by simpa using hs
  rw [buffer_of_cons h, ← dotdot_up_of_cons h]
  by_cases ht : s.up.toElems = []
  · simp only [ht, if_true, List.append_nil, List.reverse_append]
    exact backtrack_base he hs' (by rw [List.length_reverse, buffer_length_of_nil (elems_eq_nil_of_toElems ht)])
  · simp only [ht, if_false, List.reverse_append, List.reverse_cons, List.reverse_nil,
      List.nil_append, List.singleton_append, List.append_assoc]
    exact backtrack_sep he hs' (by simpa using s.up.dotdot_le_buffer_length)

theorem buffer_up_of_nil {s : Lexical} (h : s.elems = []) (hr : s.rooted = false) :
    s.up.buffer.reverse = '.' :: '.' ::
      (if 0 < s.buffer.reverse.length then '/' :: s.buffer.reverse else s.buffer.reverse) := by
  obtain ⟨h1, h2⟩ := up_of_nil h hr
  simp only [buffer, toElems, h1, h2, up_rooted, hr, h, List.replicate_succ', List.reverse_nil,
    List.append_nil, if_false, Bool.false_eq_true, List.nil_append]
  by_cases hu : s.ups = 0
  · simp [hu, List.intercalate]
  · have hne : ['/'].intercalate (List.replicate s.ups ['.', '.']) ≠ [] :=
      intercalate_ne_nil (by simpa using hu) (fun e he => by rw [List.eq_of_mem_replicate he]; simp)
    rw [intercalate_append_one (by simpa using hu)]
    simp [List.length_pos.2 hne]

theorem reverse_buffer_push_real (s : Lexical) {e : List Char} (he : RealElem e) :
    (s.push e).buffer.reverse = e.reverse ++ addSep s.rooted s.buffer.reverse := by
  rw [buffer_push_real s he, addSep_buffer]
  split_ifs <;> simp

@[simp] theorem dotdot_push_real (s : Lexical) {e : List Char} (he : RealElem e) :
    (s.push e).dotdot = s.dotdot := by
  simp [dotdot, (push_of_real he).2]

theorem mem_up_elems {s : Lexical} {x : List Char} (h : x ∈ s.up.elems) : x ∈ s.elems := by
  unfold up at h; split at h
  · simp_all
  · split at h <;> simp_all

theorem sepFree_push {s : Lexical} (hs : ∀ x ∈ s.elems, '/' ∉ x) {e : List Char} (he : '/' ∉ e) :
    ∀ x ∈ (s.push e).elems, '/' ∉ x := by
  unfold push
  split_ifs
  · exact hs
  · exact fun x hx => hs x (mem_up_elems hx)
  · simpa [he] using hs

end Lexical

theorem copyElem_eq (rooted : Bool) (r out : List Char) (dotdot : Nat) :
    copyElem rooted r out dotdot =
      cleanLoop rooted (r.dropWhile (· != '/')) ((r.takeWhile (· != '/')).reverse ++ out) dotdot := by
  induction r generalizing out with
  | nil => simp [copyElem, cleanLoop]
  | cons c r ih =>
    by_cases hc : c = '/'
    · subst hc; simp [copyElem, cleanLoop]
    · simp [copyElem, hc, ih]

theorem cleanLoop_copy (s : Lexical) (pre : List Char) (r : List Char)
    (he : RealElem (pre ++ r.takeWhile (· != '/'))) :
    copyElem s.rooted r (pre.reverse ++ addSep s.rooted s.buffer.reverse) s.dotdot =
      cleanLoop s.rooted (r.dropWhile (· != '/'))
        (s.push (pre ++ r.takeWhile (· != '/'))).buffer.reverse s.dotdot := by
  rw [copyElem_eq, s.reverse_buffer_push_real he]
  simp

theorem takeWhile_dropWhile_of_sep {r : List Char} (h : r = [] ∨ r.head? = some '/') :
    r.takeWhile (· != '/') = [] ∧ r.dropWhile (· != '/') = r := by
  rcases r with _ | ⟨x, r⟩ <;> simp_all

/-- A `..` element at the end of the input or before a separator: `Clean` backtracks, keeps
a rooted path at its root, or records one more leading `..`. -/
theorem cleanLoop_dotdot {s : Lexical} (hs : ∀ x ∈ s.elems, '/' ∉ x) {r : List Char}
    (hsep : r = [] ∨ r.head? = some '/') :
    cleanLoop s.rooted ('.' :: '.' :: r) s.buffer.reverse s.dotdot =
      cleanLoop s.rooted r s.up.buffer.reverse s.up.dotdot := by
  rw [cleanLoop.eq_3, if_pos hsep, List.length_reverse]
  by_cases hne : s.elems = []
  · rw [if_neg (by rw [Lexical.dotdot_lt_iff]; exact not_not.2 hne)]
    cases hr : s.rooted
    · simp only [if_false, Bool.false_eq_true]
      rw [← List.length_reverse, ← Lexical.buffer_up_of_nil hne hr]
      congr 1
      rw [List.length_reverse, Lexical.buffer_length_of_nil (Lexical.up_of_nil hne hr).1]
    · rw [if_pos rfl, Lexical.up_of_nil_rooted hne hr]
  · obtain ⟨x, rest, hx⟩ := List.exists_cons_of_ne_nil hne
    rw [if_pos ((Lexical.dotdot_lt_iff s).2 hne), Lexical.backtrack_buffer hx (hs x (by simp [hx])),
      Lexical.dotdot_up_of_cons hx]

theorem cleanLoop_elem {s : Lexical} (hs : ∀ x ∈ s.elems, '/' ∉ x) {c : Char} (hc : c ≠ '/')
    (r : List Char) :
    cleanLoop s.rooted (c :: r) s.buffer.reverse s.dotdot =
      cleanLoop s.rooted (r.dropWhile (· != '/'))
        (s.push (c :: r.takeWhile (· != '/'))).buffer.reverse
        (s.push (c :: r.takeWhile (· != '/'))).dotdot := by
  by_cases hd : c = '.'
  · subst hd
    rcases r with _ | ⟨c2, r2⟩
    · simp [cleanLoop, Lexical.push_dot]
    by_cases h2 : c2 = '.'
    · subst h2
      have hdot : ('.' != '/') = true := rfl
      by_cases hsep : r2 = [] ∨ r2.head? = some '/'
      · obtain ⟨htw, hdw⟩ := takeWhile_dropWhile_of_sep hsep
        simp only [List.takeWhile_cons, List.dropWhile_cons, htw, hdw, hdot, if_true,
          Lexical.push_dotdot]
        exact cleanLoop_dotdot hs hsep
      · obtain ⟨c3, r3, rfl⟩ := List.exists_cons_of_ne_nil (fun h => hsep (.inl h))
        have hc3 : (c3 != '/') = true := by simpa using fun h => hsep (.inr (by simp [h]))
        have he : RealElem ('.' :: '.' :: (c3 :: r3).takeWhile (· != '/')) := by
          simp [RealElem, hc3]
        have h := cleanLoop_copy s ['.', '.'] (c3 :: r3) he
        rw [cleanLoop.eq_3, if_neg hsep]
        simp only [List.takeWhile_cons, List.dropWhile_cons, hdot, hc3, if_true] at h he ⊢
        rw [Lexical.dotdot_push_real s he]
        exact h
    · rw [cleanLoop.eq_4 _ _ _ _ (by simp [h2])]
      by_cases h3 : c2 = '/'
      · subst h3
        simp [Lexical.push_dot]
      · have hc2 : (c2 != '/') = true := by simpa using h3
        have he : RealElem ('.' :: (c2 :: r2).takeWhile (· != '/')) := by
          simp [RealElem, hc2, h2]
        rw [if_neg (by simp [h3]), Lexical.dotdot_push_real s he]
        exact cleanLoop_copy s ['.'] (c2 :: r2) he
  · have he : RealElem (c :: r.takeWhile (· != '/')) := by simp [RealElem, hd]
    rw [cleanLoop.eq_5 _ _ _ _ _ hc (fun _ h' => absurd h' hd) hd, Lexical.dotdot_push_real s he]
    exact cleanLoop_copy s [c] r he

theorem not_mem_takeWhile (r : List Char) : '/' ∉ r.takeWhile (· != '/') := fun h => by
  simpa using List.mem_takeWhile_imp h

/-- The bridge: `Clean`'s loop from the buffer of `s` writes the buffer of `s` with the
remaining path elements pushed. -/
theorem cleanLoop_eq : ∀ (path : List Char) (s : Lexical), (∀ x ∈ s.elems, '/' ∉ x) →
    cleanLoop s.rooted path s.buffer.reverse s.dotdot =
      ((pathElems path).foldl Lexical.push s).buffer.reverse
  | [], s, _ => by simp [cleanLoop]
  | c :: r, s, hs => by
    by_cases hc : c = '/'
    · subst hc
      rw [cleanLoop.eq_2, pathElems_sep]
      exact cleanLoop_eq r s hs
    · have hs' := Lexical.sepFree_push hs
        (fun h => (List.mem_cons.1 h).elim (fun h => hc h.symm) (fun h => not_mem_takeWhile r h))
      rw [cleanLoop_elem hs hc, pathElems_cons hc, List.foldl_cons,
        ← Lexical.push_rooted s (c :: r.takeWhile (· != '/'))]
      exact cleanLoop_eq _ _ hs'
termination_by path => path.length
decreasing_by
  all_goals simp_wf
  all_goals have : (r.dropWhile (· != '/')).length ≤ r.length := (List.dropWhile_sublist _).length_le
  all_goals omega

theorem isAbs_cons (c : Char) (r : List Char) : isAbs (c :: r) = decide (c = '/') := by
  unfold isAbs; split <;> simp_all

theorem clean_eq_cleanSpec (path : List Char) : clean path = cleanSpec path := by
  have hfin (s : Lexical) : (if s.buffer.reverse = [] then ['.'] else s.buffer.reverse.reverse) =
      s.render := by simp [Lexical.render]
  rcases path with _ | ⟨c, r⟩
  · rfl
  by_cases hc : c = '/'
  · subst hc
    have h := cleanLoop_eq r (Lexical.empty true) (fun _ h => absurd h (List.not_mem_nil _))
    simp only [clean, if_true]
    rw [show cleanLoop true r ['/'] 1 = cleanLoop (Lexical.empty true).rooted r
      (Lexical.empty true).buffer.reverse (Lexical.empty true).dotdot from rfl, h, hfin]
    rfl
  · have h := cleanLoop_eq (c :: r) (Lexical.empty false) (fun _ h => absurd h (List.not_mem_nil _))
    simp only [clean, if_neg hc]
    rw [show cleanLoop false (c :: r) [] 0 = cleanLoop (Lexical.empty false).rooted (c :: r)
      (Lexical.empty false).buffer.reverse (Lexical.empty false).dotdot from rfl, h, hfin]
    simp [cleanSpec, Lexical.ofPath, isAbs_cons, hc]

example : clean "a//b/./../c/".toList = "a/c".toList := by decide
example : clean "/../x/..".toList = "/".toList := by decide
example : clean "../a/../../b".toList = "../../b".toList := by decide

end IgnitionSync.Filepath
