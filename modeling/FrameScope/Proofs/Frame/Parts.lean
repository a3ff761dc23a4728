import FrameScope.Frame.Basic
import FrameScope.Proofs.Node.Loggable

/-!
# What is read of the parts of a frame

What every part of a record has that is read below a document, the parts of the record have that is
read from the document (`Replica.parts_of_read`, `Frame.parts_of_read`). Fields are read from
documents with `D`, the items of lists among them from documents with `E`.
-/

namespace FrameScope

open Node

open Read (Reads keeps_free keeps_of_list keeps_of_option keeps_of_set lt_of_word record_invariant)

variable {m : Medium} {D E : Node → Prop} {node : Node} {Q : Json → Prop}

theorem Read.reads_word : Reads m D word (· < Word.size) := fun _ _ _ hx => lt_of_word hx

/-! ### Accounts and replicas -/

/-- An account whose deltas have `P` and whose untyped values have `Q`. -/
structure Account.Parts (P : Keyed Json → Prop) (Q : Json → Prop) (a : Account) : Prop where
  height : a.height < Word.size
  deltas : P a.deltas
  mempool : ∀ v ∈ a.mempool, Q v

theorem Account.parts_of_read {P : Keyed Json → Prop} {a : Account}
    (hitems : ∀ v, D v → v.Parts E) (hdeltas : Reads m D Keyed.read P) (hempty : P .empty)
    (hvalue : Reads m E Read.json Q) (hnode : node.Parts D) (h : Coded.read m node = .ok a) :
    a.Parts P Q := by
  refine record_invariant (P := Account.Parts P Q) ⟨by decide, hempty, by simp⟩ ?_ hnode h
  simp only [fields, List.forall_mem_cons, List.not_mem_nil, false_implies, implies_true, and_true]
  refine ⟨?counterparty, ?height, ?deltas, ?mempool⟩
  case counterparty => exact keeps_free rfl fun x s hs => { hs with }
  case height => exact keeps_of_set rfl Read.reads_word fun x s hx hs => { hs with height := hx }
  case deltas => exact keeps_of_set rfl hdeltas fun x s hx hs => { hs with deltas := hx }
  case mempool => exact keeps_of_list rfl hitems hvalue fun x s hx hs => { hs with mempool := hx }

/-- A replica whose reserves have `P`, whose accounts have `A` and whose untyped values have `Q`. -/
structure Replica.Parts (P : Keyed Amount → Prop) (A : Keyed Account → Prop) (Q : Json → Prop)
    (r : Replica) : Prop where
  height : r.height < Word.size
  reserves : P r.reserves
  accounts : A r.accounts
  mempool : ∀ v ∈ r.mempool, Q v
  insuranceLines : ∀ v ∈ r.insuranceLines, Q v
  debts : ∀ v ∈ r.debts, Q v

theorem Replica.parts_of_read {P : Keyed Amount → Prop} {A : Keyed Account → Prop} {r : Replica}
    (hitems : ∀ v, D v → v.Parts E) (hreserves : Reads m D Keyed.read P)
    (hnone : P .empty) (haccounts : Reads m D Keyed.read A) (hempty : A .empty)
    (hvalue : Reads m E Read.json Q) (hnode : node.Parts D) (h : Coded.read m node = .ok r) :
    r.Parts P A Q := by
  refine record_invariant (P := Replica.Parts P A Q)
    ⟨by decide, hnone, hempty, by simp, by simp, by simp⟩ ?_ hnode h
  simp only [fields, List.forall_mem_cons, List.not_mem_nil, false_implies, implies_true, and_true]
  refine ⟨?entity, ?signer, ?height, ?reserves, ?accounts, ?mempool, ?insuranceLines, ?debts⟩
  case entity => exact keeps_free rfl fun x s hs => { hs with }
  case signer => exact keeps_free rfl fun x s hs => { hs with }
  case height => exact keeps_of_set rfl Read.reads_word fun x s hx hs => { hs with height := hx }
  case reserves => exact keeps_of_set rfl hreserves fun x s hx hs => { hs with reserves := hx }
  case accounts => exact keeps_of_set rfl haccounts fun x s hx hs => { hs with accounts := hx }
  case mempool => exact keeps_of_list rfl hitems hvalue fun x s hx hs => { hs with mempool := hx }
  case insuranceLines =>
    exact keeps_of_list rfl hitems hvalue fun x s hx hs => { hs with insuranceLines := hx }
  case debts => exact keeps_of_list rfl hitems hvalue fun x s hx hs => { hs with debts := hx }

/-! ### Machines, log entries and inputs -/

/-- A machine whose untyped values have `Q`. -/
structure Machine.Parts (Q : Json → Prop) (x : Machine) : Prop where
  chain : ∀ n ∈ x.chain, n < Word.size
  block : x.block < Word.size
  entities : ∀ v ∈ x.entities, Q v

theorem Machine.parts_of_read {x : Machine} (hitems : ∀ v, D v → v.Parts E)
    (hvalue : Reads m E Read.json Q) (hnode : node.Parts D) (h : Coded.read m node = .ok x) :
    x.Parts Q := by
  refine record_invariant (P := Machine.Parts Q) ⟨by simp, by decide, by simp⟩ ?_ hnode h
  simp only [fields, List.forall_mem_cons, List.not_mem_nil, false_implies, implies_true, and_true]
  refine ⟨?name, ?chain, ?block, ?entities⟩
  case name => exact keeps_free rfl fun x s hs => { hs with }
  case chain => exact keeps_of_option rfl Read.reads_word fun x s hx hs => { hs with chain := hx }
  case block => exact keeps_of_set rfl Read.reads_word fun x s hx hs => { hs with block := hx }
  case entities => exact keeps_of_list rfl hitems hvalue fun x s hx hs => { hs with entities := hx }

theorem LogEntry.data_of_read {e : LogEntry}
    (hdata : Reads m (fun v => D v ∧ v ≠ .null) Read.json Q) (hnode : node.Parts D)
    (h : Coded.read m node = .ok e) : ∀ v ∈ e.data, Q v := by
  refine record_invariant (P := fun e : LogEntry => ∀ v ∈ e.data, Q v) (by simp [blank]) ?_ hnode h
  simp only [fields, List.forall_mem_cons, List.not_mem_nil, false_implies, implies_true, and_true]
  refine ⟨?level, ?category, ?message, ?entity, ?data⟩
  case level => exact keeps_free rfl fun x s hs => hs
  case category => exact keeps_free rfl fun x s hs => hs
  case message => exact keeps_free rfl fun x s hs => hs
  case entity => exact keeps_free rfl fun x s hs => hs
  case data => exact keeps_of_option rfl hdata fun x s hx hs => hx

/-- An input whose untyped values have `Q`. -/
structure StepInput.Parts (Q : Json → Prop) (i : StepInput) : Prop where
  transactions : ∀ v ∈ i.transactions, Q v
  entityInputs : ∀ v ∈ i.entityInputs, Q v

theorem StepInput.parts_of_read {i : StepInput} (hitems : ∀ v, D v → v.Parts E)
    (hvalue : Reads m E Read.json Q) (hnode : node.Parts D) (h : Coded.read m node = .ok i) :
    i.Parts Q := by
  refine record_invariant (P := StepInput.Parts Q) ⟨by simp, by simp⟩ ?_ hnode h
  simp only [fields, List.forall_mem_cons, List.not_mem_nil, false_implies, implies_true, and_true]
  refine ⟨?transactions, ?entityInputs⟩
  case transactions =>
    exact keeps_of_list rfl hitems hvalue fun x s hx hs => { hs with transactions := hx }
  case entityInputs =>
    exact keeps_of_list rfl hitems hvalue fun x s hx hs => { hs with entityInputs := hx }

/-! ### Frames -/

/-- A frame whose replicas have `R`, whose machines have `M`, whose log entries have `L`, whose input
has `I` and whose untyped values have `Q`. -/
structure Frame.Parts (R : Keyed Replica → Prop) (M : Keyed Machine → Prop) (L : LogEntry → Prop)
    (I : StepInput → Prop) (Q : Json → Prop) (f : Frame) : Prop where
  height : f.height < Word.size
  timestamp : f.timestamp < Word.size
  replicas : ∀ c ∈ f.replicas, R c
  machines : ∀ c ∈ f.machines, M c
  logs : ∀ e ∈ f.logs, L e
  input : ∀ i ∈ f.input, I i
  outputs : ∀ v ∈ f.outputs, Q v

theorem Frame.parts_of_read {R : Keyed Replica → Prop} {M : Keyed Machine → Prop}
    {L : LogEntry → Prop} {I : StepInput → Prop} {f : Frame} (hitems : ∀ v, D v → v.Parts E)
    (hreplicas : Reads m D Keyed.read R) (hmachines : Reads m D Keyed.read M)
    (hlogs : Reads m E Coded.read L) (hinput : Reads m D Coded.read I)
    (hvalue : Reads m E Read.json Q) (hnode : node.Parts D) (h : Coded.read m node = .ok f) :
    f.Parts R M L I Q := by
  refine record_invariant (P := Frame.Parts R M L I Q)
    ⟨by decide, by decide, by simp, by simp, by simp, by simp, by simp⟩ ?_ hnode h
  simp only [fields, List.forall_mem_cons, List.not_mem_nil, false_implies, implies_true, and_true]
  refine ⟨?height, ?timestamp, ?replicas, ?machines, ?logs, ?input, ?outputs, ?gossip⟩
  case height => exact keeps_of_set rfl Read.reads_word fun x s hx hs => { hs with height := hx }
  case timestamp =>
    exact keeps_of_set rfl Read.reads_word fun x s hx hs => { hs with timestamp := hx }
  case replicas =>
    exact keeps_of_option rfl (hreplicas.mono fun _ => And.left)
      fun x s hx hs => { hs with replicas := hx }
  case machines =>
    exact keeps_of_option rfl (hmachines.mono fun _ => And.left)
      fun x s hx hs => { hs with machines := hx }
  case logs => exact keeps_of_list rfl hitems hlogs fun x s hx hs => { hs with logs := hx }
  case input =>
    exact keeps_of_option rfl (hinput.mono fun _ => And.left)
      fun x s hx hs => { hs with input := hx }
  case outputs => exact keeps_of_list rfl hitems hvalue fun x s hx hs => { hs with outputs := hx }
  case gossip => exact keeps_free rfl fun x s hs => { hs with }

end FrameScope
