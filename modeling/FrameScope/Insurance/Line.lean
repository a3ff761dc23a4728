import FrameScope.Node.Coded
import FrameScope.Node.Record
import FrameScope.Time.Span

/-!
# Insurance lines

* `InsuranceLine`: coverage that an insurer has committed to an entity for one token;
* `FetchError`: why a request for lines got none.
-/

namespace FrameScope

/-- Coverage that an insurer has committed to an entity for one token. -/
structure InsuranceLine where
  insurer : String
  token : Nat
  remaining : Amount
  /-- The deadline, in seconds. -/
  expires : Amount
  deriving DecidableEq, Inhabited

namespace InsuranceLine

/-- Whether the deadline has come; one beyond 64 bits never comes. -/
def isExpired (line : InsuranceLine) (now : Nat) : Bool :=
  match line.expires.toWord? with
  | some deadline => deadline ≤ now
  | none => false

def fields : List (Field InsuranceLine) :=
  [ .must "insurer" Read.text fun x l => { l with insurer := x },
    .must "tokenId" Read.word fun x l => { l with token := x },
    .must "remaining" Read.amount fun x l => { l with remaining := x },
    .must "expiresAt" Read.amount fun x l => { l with expires := x } ]

def write (l : InsuranceLine) : Node :=
  .map [ (.name "insurer", .text l.insurer), (.name "tokenId", .int l.token),
    (.name "remaining", Coded.write l.remaining), (.name "expiresAt", Coded.write l.expires) ]

instance : Coded InsuranceLine := ⟨Read.record fields default, write⟩

end InsuranceLine

inductive FetchError where
  | timeout (limit : Span)
  /-- The source failed; the causes, outermost first. -/
  | source (causes : List String)
  deriving DecidableEq, Repr

def FetchError.message : FetchError → String
  | .timeout limit => s!"insurance fetch timed out after {limit.text}"
  | .source causes => "insurance fetch failed: " ++ ": ".intercalate causes

/-- What comes of a request: lines, or the reason why there are none. -/
abbrev InsuranceAnswer := Except FetchError (List InsuranceLine)

end FrameScope
