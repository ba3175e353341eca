import IgnitionSync.Filepath
import IgnitionSync.FilepathJoin
import IgnitionSync.AgentProfile
import IgnitionSync.AgentSync
import IgnitionSync.ControllerRbac
import IgnitionSync.ControllerRuns
import IgnitionSync.GitAuth
