import FrameScope.Command.Coverage
import FrameScope.Command.Frames
import FrameScope.Command.Preferences

/-!
# Running the program

`Report.ofWords` is the whole program: a line and an environment, files before and after, and what
is printed.
-/

namespace FrameScope

namespace Invocation

def run (r : Invocation) (now : Nat) (fs : Files) : Files × Except CommandError Answer :=
  match r.command with
  | .importFrames file => r.importFrames fs file
  | .head => (fs, r.head fs)
  | .frame index => (fs, r.frame fs index)
  | .replicas index entity decimals => (fs, r.replicas fs index entity decimals)
  | .machines index => (fs, r.machines fs index)
  | .logs index choice => (fs, r.logs fs index choice)
  | .insurance entity file decimals => (fs, r.insurance fs now entity file decimals)
  | .settings action => r.changeSettings fs action

/-- The files that a command has to do with. -/
def files (r : Invocation) : List Path :=
  let settings := Files.path r.settings
  let named := match r.command with
    | .importFrames file => [Files.path file]
    | .insurance _ file _ => [Files.path file]
    | _ => []
  [ LogStore.logPath (Files.path r.store), settings ++ [SettingsKey.file dashboardKey],
    settings ++ [SettingsKey.draft dashboardKey] ] ++ named

end Invocation

namespace Report

def version : String := "xln-inspect 0.1.0"

/-- The commands and options, a line each. -/
def help : String :=
  let words := Place.top.commands.map fun c =>
    "  " ++ " ".intercalate (c.1 :: c.2.commands.map (·.1))
  let options := Place.top.switches.map fun o => "  --" ++ o.name
  Invocation.lines (["Usage: xln-inspect [OPTIONS] <COMMAND>", "", "Commands:"] ++ words
    ++ ["", "Options:"] ++ options)

def ofStop : Stop → Report
  | .version => { output := version ++ "\n" }
  | .help => { output := help ++ "\n" }
  | .usage e => { code := 2, failure := some e.message }

/-- Runs a line on files; `now` is the present in seconds. -/
def ofWords (env : Entries String) (words : List String) (now : Nat) (fs : Files) :
    Files × Report :=
  match Invocation.ofWords env words with
  | .error stop => (fs, ofStop stop)
  | .ok r =>
    let (fs, answer) := r.run now fs
    (fs, ofAnswer r.style answer)

end Report

end FrameScope
