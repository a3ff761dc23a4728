import FrameScope.Amount.Display
import FrameScope.Command.Answer
import FrameScope.Insurance.Desk
import FrameScope.Text.ShortId

/-!
# The command on insurance

`Invocation.insurance` shows the insurance lines of an entity, from the file of its jurisdiction.
-/

namespace FrameScope.Invocation

def coverageLine (l : InsuranceLine) (decimals now : Nat) : String :=
  let remaining := l.remaining.fixedPoint decimals
  let left := (l.expires.expiry now).message
  s!"{Text.shortId l.insurer}  token {l.token}  remaining {remaining}  {left}"

def ofInsuranceView (view : InsuranceView) (name entity : String) (decimals now : Nat) :
    Except CommandError Answer :=
  let about := some [("jurisdiction", Json.str name), ("entityId", Json.str entity)]
  match view with
  | .loaded _ [] => .ok (.nothing s!"no insurance lines for entity {entity}" about)
  | .loaded _ ls =>
    .ok (.found (.arr (ls.map Coded.json))
      ("\n".intercalate (ls.map fun l => coverageLine l decimals now)) about [])
  | .unavailable _ =>
    .ok (.nothing s!"insurance not available in jurisdiction {name}" about)
  | .failed _ message => .error (.insurance message)
  | _ => .error (.insurance s!"insurance fetch for {entity} did not complete")

def insurance (r : Invocation) (fs : Files) (now : Nat) (entity file : String) (decimals : Nat) :
    Except CommandError Answer :=
  match Jurisdiction.ofFile fs (Files.path file) file with
  | .error e => .error (.snapshot e)
  | .ok j =>
    let desk := (Desk.ofJurisdiction j r.timeout).fetch fs entity
    ofInsuranceView desk.fetcher.view j.name entity decimals now

end FrameScope.Invocation
