import FrameScope.Proofs.Collection.Loggable
import FrameScope.Proofs.Frame.Parts

/-!
# What a log makes of a frame

Every part of a frame is brought as its own parts are (`Replica.brings`, `Frame.brings`). It comes
back from a log as it is, but for the replicas and the machines, and inside a replica for the
reserves and the accounts: those are keyed collections (`Replica.logged`, `Frame.logged`).
-/

namespace FrameScope

open Node

open Carriage

variable {K : Carriage} {level : Nat}

/-! ### Accounts -/

/-- An account as a text yields it. -/
structure Account.Good (a : Account) : Prop where
  height : a.height < Word.size
  deltas : Keyed.Good a.deltas
  /-- Untyped values always decode. -/
  typed : ∀ fs, a.deltas ≠ .object fs
  mempool : ∀ v ∈ a.mempool, v.Sound

namespace Account

theorem good_of_read {m : Medium} {node : Node} {a : Account} (hm : m ≠ .value)
    (hnode : node.Literal) (h : Coded.read m node = .ok a) : a.Good := by
  have hdeltas : Read.Reads m Literal Keyed.read
      fun c : Keyed Json => Keyed.Good c ∧ ∀ fs, c ≠ .object fs := by
    intro v c hv hc
    exact ⟨Keyed.good_of_read hm hv hc, Keyed.ne_object_of_read hc⟩
  have ha := parts_of_read (fun _ hv => hv.parts) hdeltas ⟨Keyed.good_empty, nofun⟩
    (Loggable.reads hm) hnode.parts h
  exact ⟨ha.height, ha.deltas.1, ha.deltas.2, ha.mempool⟩

theorem brings {a : Account} {deltas : Keyed Json} (hheight : a.height < Word.size)
    (hdeltas : K.Brings (level + 1) Keyed.read a.deltas.write deltas)
    (hmempool : ∀ v ∈ a.mempool, K.Brings level Coded.read (Coded.write v) v) :
    K.Brings (level + 2) Coded.read a.write { a with deltas := deltas } := by
  refine brings_record (by decide) ?_
  simp only [List.cons_append, List.nil_append]
  exact .always rfl rfl (brings_text _) <| .always rfl rfl (brings_word hheight) <|
    .always rfl rfl hdeltas <| .nonempty rfl rfl rfl rfl hmempool <| .nil _

theorem brings_logged (level : Nat) {a : Account} (ha : a.Good) :
    log.Brings (level + 2) Coded.read a.write a := by
  have hsame : a.deltas.logged = a.deltas :=
    (Keyed.logged_eq_iff (fun _ => rfl)).mpr fun fs hfs => absurd hfs (ha.typed fs)
  have hdeltas : log.Brings (level + 1) Keyed.read a.deltas.write a.deltas.logged :=
    Loggable.brings (α := Keyed Json) ha.deltas
  rw [hsame] at hdeltas
  exact brings ha.height hdeltas fun v hv => Loggable.brings (ha.mempool v hv)

instance : Loggable Account where
  Good := Account.Good
  logged a := a
  good_of_read := good_of_read
  writable h := (brings_logged 0 h).passes
  read_logged h _ := (brings_logged 0 h).read rfl

end Account

/-! ### Replicas -/

/-- A replica as a text yields it. -/
structure Replica.Good (r : Replica) : Prop where
  height : r.height < Word.size
  reserves : Keyed.Good r.reserves
  accounts : Keyed.Good r.accounts
  mempool : ∀ v ∈ r.mempool, v.Sound
  insuranceLines : ∀ v ∈ r.insuranceLines, v.Sound
  debts : ∀ v ∈ r.debts, v.Sound

namespace Replica

/-- What a log makes of a replica. -/
def logged (r : Replica) : Replica :=
  { r with reserves := r.reserves.logged, accounts := r.accounts.logged }

theorem good_of_read {m : Medium} {node : Node} {r : Replica} (hm : m ≠ .value)
    (hnode : node.Literal) (h : Coded.read m node = .ok r) : r.Good := by
  have hr := parts_of_read (fun _ hv => hv.parts) (Loggable.reads (α := Keyed Amount) hm)
    Keyed.good_empty (Loggable.reads (α := Keyed Account) hm) Keyed.good_empty
    (Loggable.reads hm) hnode.parts h
  exact ⟨hr.height, hr.reserves, hr.accounts, hr.mempool, hr.insuranceLines, hr.debts⟩

theorem brings {r : Replica} {reserves : Keyed Amount} {accounts : Keyed Account}
    (hheight : r.height < Word.size)
    (hreserves : K.Brings (level + 1) Keyed.read r.reserves.write reserves)
    (haccounts : K.Brings (level + 1) Keyed.read r.accounts.write accounts)
    (hmempool : ∀ v ∈ r.mempool, K.Brings level Coded.read (Coded.write v) v)
    (hlines : ∀ v ∈ r.insuranceLines, K.Brings level Coded.read (Coded.write v) v)
    (hdebts : ∀ v ∈ r.debts, K.Brings level Coded.read (Coded.write v) v) :
    K.Brings (level + 2) Coded.read r.write
      { r with reserves := reserves, accounts := accounts } := by
  refine brings_record (by decide) ?_
  simp only [List.cons_append, List.nil_append, List.append_assoc]
  exact .always rfl rfl (brings_text _) <| .always rfl rfl (brings_text _) <|
    .always rfl rfl (brings_word hheight) <| .always rfl rfl hreserves <|
    .always rfl rfl haccounts <| .nonempty rfl rfl rfl rfl hmempool <|
    .nonempty rfl rfl rfl rfl hlines <| .nonempty rfl rfl rfl rfl hdebts <| .nil _

theorem brings_logged (level : Nat) {r : Replica} (hr : r.Good) :
    log.Brings (level + 2) Coded.read r.write r.logged :=
  brings hr.height (Loggable.brings (α := Keyed Amount) hr.reserves)
    (Loggable.brings (α := Keyed Account) hr.accounts)
    (fun v hv => Loggable.brings (hr.mempool v hv))
    (fun v hv => Loggable.brings (hr.insuranceLines v hv))
    (fun v hv => Loggable.brings (hr.debts v hv))

instance : Loggable Replica where
  Good := Replica.Good
  logged := logged
  good_of_read := good_of_read
  writable h := (brings_logged 0 h).passes
  read_logged h _ := (brings_logged 0 h).read rfl

/-- A log changes nothing of a replica: an object kept as it is, among its reserves and its accounts,
stays one. -/
structure Kept (r : Replica) : Prop where
  reserves : ∀ fs, r.reserves = .object fs → ∃ f ∈ fs, (Coded.ofLogged? f.2 : Option Amount) = none
  accounts : ∀ fs, r.accounts = .object fs → ∃ f ∈ fs, (Coded.ofLogged? f.2 : Option Account) = none

theorem logged_eq_iff {r : Replica} : r.logged = r ↔ r.Kept := by
  have hreserves := Keyed.logged_eq_iff (fun _ => rfl) (c := r.reserves)
  have haccounts := Keyed.logged_eq_iff (fun _ => rfl) (c := r.accounts)
  constructor
  · intro h
    exact ⟨hreserves.mp (congrArg Replica.reserves h), haccounts.mp (congrArg Replica.accounts h)⟩
  · intro h
    rw [logged, hreserves.mpr h.reserves, haccounts.mpr h.accounts]

end Replica

/-! ### Machines -/

/-- A machine as a text yields it. -/
structure Machine.Good (x : Machine) : Prop where
  chain : ∀ n ∈ x.chain, n < Word.size
  block : x.block < Word.size
  entities : ∀ v ∈ x.entities, v.Sound

namespace Machine

theorem good_of_read {m : Medium} {node : Node} {x : Machine} (hm : m ≠ .value)
    (hnode : node.Literal) (h : Coded.read m node = .ok x) : x.Good := by
  have hx := parts_of_read (fun _ hv => hv.parts) (Loggable.reads hm) hnode.parts h
  exact ⟨hx.chain, hx.block, hx.entities⟩

theorem brings {x : Machine} (hchain : ∀ n ∈ x.chain, n < Word.size) (hblock : x.block < Word.size)
    (hentities : ∀ v ∈ x.entities, K.Brings level Coded.read (Coded.write v) v) :
    K.Brings (level + 2) Coded.read x.write x := by
  refine brings_record (by decide) ?_
  simp only [List.cons_append, List.nil_append, List.append_assoc]
  exact .always rfl rfl (brings_text _) <|
    .optional rfl rfl rfl rfl (fun n hn => ⟨brings_word (hchain n hn), nofun⟩) Option.map_id' <|
    .always rfl rfl (brings_word hblock) <| .nonempty rfl rfl rfl rfl hentities <| .nil _

theorem brings_logged (level : Nat) {x : Machine} (hx : x.Good) :
    log.Brings (level + 2) Coded.read x.write x :=
  brings hx.chain hx.block fun v hv => Loggable.brings (hx.entities v hv)

instance : Loggable Machine where
  Good := Machine.Good
  logged x := x
  good_of_read := good_of_read
  writable h := (brings_logged 0 h).passes
  read_logged h _ := (brings_logged 0 h).read rfl

end Machine

/-! ### Log entries -/

/-- A log entry as a text yields it. -/
def LogEntry.Good (e : LogEntry) : Prop := ∀ v ∈ e.data, v.Sound ∧ v ≠ .null

namespace LogEntry

theorem good_of_read {m : Medium} {node : Node} {e : LogEntry} (hnode : node.Literal)
    (h : Coded.read m node = .ok e) : e.Good := by
  refine data_of_read (fun v x hv hx => ?_) hnode.parts h
  obtain ⟨hlit, hne⟩ := hv
  exact ⟨Read.sound_of_json hlit hx, fun hnull => hne (Read.eq_null_of_json hlit (hnull ▸ hx))⟩

theorem brings_level (l : Level) : K.Brings level Coded.read (Coded.write l) l where
  passes := K.passes_text
  read harrives := by
    rw [show Coded.write l = .text l.name from rfl, (K.form harrives).text]
    cases l <;> rfl

theorem brings_category (c : Category) : K.Brings level Coded.read (Coded.write c) c where
  passes := K.passes_text
  read harrives := by
    rw [show Coded.write c = .text c.name from rfl, (K.form harrives).text]
    cases c <;> rfl

theorem brings {e : LogEntry}
    (hdata : ∀ v ∈ e.data, K.Brings level Coded.read (Coded.write v) v ∧ v ≠ .null) :
    K.Brings (level + 1) Coded.read e.write e := by
  refine brings_record (by decide) ?_
  simp only [List.cons_append, List.nil_append, List.append_assoc]
  exact .always rfl rfl (brings_level e.level) <| .always rfl rfl (brings_category e.category) <|
    .always rfl rfl (brings_text _) <|
    .optional rfl rfl rfl rfl (fun _ _ => ⟨brings_text _, nofun⟩) Option.map_id' <|
    .optional rfl rfl rfl rfl
      (fun v hv => ⟨(hdata v hv).1, fun hnull => (hdata v hv).2 (ofJson_eq_null hnull)⟩)
      Option.map_id' <| .nil _

theorem brings_logged (level : Nat) {e : LogEntry} (he : e.Good) :
    log.Brings (level + 1) Coded.read e.write e :=
  brings fun v hv => ⟨Loggable.brings (he v hv).1, (he v hv).2⟩

instance : Loggable LogEntry where
  Good := LogEntry.Good
  logged e := e
  good_of_read _ := good_of_read
  writable h := (brings_logged 0 h).passes
  read_logged h _ := (brings_logged 0 h).read rfl

end LogEntry

/-! ### Inputs and announcements -/

/-- A step's input as a text yields it. -/
structure StepInput.Good (i : StepInput) : Prop where
  transactions : ∀ v ∈ i.transactions, v.Sound
  entityInputs : ∀ v ∈ i.entityInputs, v.Sound

namespace StepInput

theorem good_of_read {m : Medium} {node : Node} {i : StepInput} (hm : m ≠ .value)
    (hnode : node.Literal) (h : Coded.read m node = .ok i) : i.Good := by
  have hi := parts_of_read (fun _ hv => hv.parts) (Loggable.reads hm) hnode.parts h
  exact ⟨hi.transactions, hi.entityInputs⟩

theorem brings {i : StepInput}
    (htransactions : ∀ v ∈ i.transactions, K.Brings level Coded.read (Coded.write v) v)
    (hinputs : ∀ v ∈ i.entityInputs, K.Brings level Coded.read (Coded.write v) v) :
    K.Brings (level + 2) Coded.read i.write i := by
  refine brings_record (by decide) ?_
  rw [List.append_assoc]
  exact .nonempty rfl rfl rfl rfl htransactions <| .nonempty rfl rfl rfl rfl hinputs <| .nil _

theorem brings_logged (level : Nat) {i : StepInput} (hi : i.Good) :
    log.Brings (level + 2) Coded.read i.write i :=
  brings (fun v hv => Loggable.brings (hi.transactions v hv))
    (fun v hv => Loggable.brings (hi.entityInputs v hv))

instance : Loggable StepInput where
  Good := StepInput.Good
  logged i := i
  good_of_read := good_of_read
  writable h := (brings_logged 0 h).passes
  read_logged h _ := (brings_logged 0 h).read rfl

end StepInput

namespace Profile

theorem brings (p : Profile) : K.Brings (level + 2) Coded.read p.write p := by
  refine brings_record (by decide) ?_
  simp only [List.cons_append, List.nil_append, List.append_assoc]
  exact .always rfl rfl (brings_text _) <|
    .optional rfl rfl rfl rfl (fun _ _ => ⟨brings_text _, nofun⟩) Option.map_id' <|
    .nonempty rfl rfl rfl rfl (fun _ _ => brings_text _) <|
    .nonempty rfl rfl rfl rfl (fun _ _ => brings_text _) <| .nil _

instance : Loggable Profile where
  Good _ := True
  logged p := p
  good_of_read _ _ _ := trivial
  writable {p} _ := (@brings log 0 p).passes
  read_logged {p} _ _ := (@brings log 0 p).read rfl

end Profile

namespace Gossip

theorem brings (g : Gossip) : K.Brings (level + 4) Coded.read g.write g := by
  have hprofiles : K.Brings (level + 3) (Read.list Coded.read) (.seq (g.profiles.map Coded.write))
      (g.profiles.map fun p => p) := brings_list fun p _ => p.brings
  rw [List.map_id'] at hprofiles
  refine brings_record (by decide) ?_
  exact .always rfl rfl hprofiles <| .nil _

instance : Loggable Gossip where
  Good _ := True
  logged g := g
  good_of_read _ _ _ := trivial
  writable {g} _ := (@brings log 0 g).passes
  read_logged {g} _ _ := (@brings log 0 g).read rfl

end Gossip

/-! ### Frames -/

/-- A frame as a text yields it. -/
structure Frame.Good (f : Frame) : Prop where
  height : f.height < Word.size
  timestamp : f.timestamp < Word.size
  replicas : ∀ c ∈ f.replicas, Keyed.Good c
  machines : ∀ c ∈ f.machines, Keyed.Good c
  logs : ∀ e ∈ f.logs, e.Good
  input : ∀ i ∈ f.input, i.Good
  outputs : ∀ v ∈ f.outputs, v.Sound

namespace Frame

/-- What a log makes of a frame. -/
def logged (f : Frame) : Frame :=
  { f with replicas := f.replicas.map Keyed.logged, machines := f.machines.map Keyed.logged }

@[simp] theorem logged_height (f : Frame) : f.logged.height = f.height := rfl

theorem good_of_read {m : Medium} {node : Node} {f : Frame} (hm : m ≠ .value)
    (hnode : node.Literal) (h : Coded.read m node = .ok f) : f.Good := by
  have hf := parts_of_read (fun _ hv => hv.parts) (Loggable.reads (α := Keyed Replica) hm)
    (Loggable.reads (α := Keyed Machine) hm) (Loggable.reads hm) (Loggable.reads hm)
    (Loggable.reads hm) hnode.parts h
  exact ⟨hf.height, hf.timestamp, hf.replicas, hf.machines, hf.logs, hf.input, hf.outputs⟩

theorem write_keyed_ne_null {α : Type} [Coded α] (c : Keyed α) : Coded.write c ≠ .null := by
  cases c <;> nofun

theorem brings {f : Frame} {g : Keyed Replica → Keyed Replica} {h : Keyed Machine → Keyed Machine}
    (hheight : f.height < Word.size) (htimestamp : f.timestamp < Word.size)
    (hreplicas : ∀ c ∈ f.replicas, K.Brings (level + 4) Keyed.read c.write (g c))
    (hmachines : ∀ c ∈ f.machines, K.Brings (level + 4) Keyed.read c.write (h c))
    (hlogs : ∀ e ∈ f.logs, K.Brings (level + 3) Coded.read (Coded.write e) e)
    (hinput : ∀ i ∈ f.input, K.Brings (level + 4) Coded.read (Coded.write i) i)
    (houtputs : ∀ v ∈ f.outputs, K.Brings (level + 3) Coded.read (Coded.write v) v) :
    K.Brings (level + 5) Coded.read f.write
      { f with replicas := f.replicas.map g, machines := f.machines.map h } := by
  have hlist : K.Brings (level + 4) (Read.list Coded.read) (.seq (f.logs.map Coded.write))
      (f.logs.map fun e => e) := brings_list hlogs
  rw [List.map_id'] at hlist
  refine brings_record (by decide) ?_
  simp only [List.cons_append, List.nil_append, List.append_assoc]
  exact .always rfl rfl (brings_word hheight) <| .always rfl rfl (brings_word htimestamp) <|
    .optional rfl rfl rfl rfl (fun c hc => ⟨hreplicas c hc, write_keyed_ne_null c⟩) rfl <|
    .optional rfl rfl rfl rfl (fun c hc => ⟨hmachines c hc, write_keyed_ne_null c⟩) rfl <|
    .always rfl rfl hlist <|
    .optional rfl rfl rfl rfl (fun i hi => ⟨hinput i hi, nofun⟩) Option.map_id' <|
    .nonempty rfl rfl rfl rfl houtputs <|
    .optional rfl rfl rfl rfl (fun g _ => ⟨g.brings, nofun⟩) Option.map_id' <| .nil _

/-- **A frame comes back from a log as its logged form.** -/
theorem brings_logged (level : Nat) {f : Frame} (hf : f.Good) :
    log.Brings (level + 5) Coded.read f.write f.logged :=
  brings hf.height hf.timestamp
    (fun c hc => Loggable.brings (α := Keyed Replica) (hf.replicas c hc))
    (fun c hc => Loggable.brings (α := Keyed Machine) (hf.machines c hc))
    (fun e he => Loggable.brings (hf.logs e he)) (fun i hi => Loggable.brings (hf.input i hi))
    (fun v hv => Loggable.brings (hf.outputs v hv))

instance : Loggable Frame where
  Good := Frame.Good
  logged := logged
  good_of_read := good_of_read
  writable h := (brings_logged 0 h).passes
  read_logged h _ := (brings_logged 0 h).read rfl

theorem replicaPairs_logged_iff {f : Frame} :
    f.logged.replicaPairs = f.replicaPairs ↔ (f.replicas.getD .empty).Kept Replica.Kept := by
  have hlogged : f.logged.replicas.getD .empty = (f.replicas.getD .empty).logged := by
    cases h : f.replicas <;> simp [logged, h, Keyed.empty, Keyed.logged]
  rw [replicaPairs, hlogged]
  exact Keyed.normalize_logged_iff fun _ => Replica.logged_eq_iff

theorem machinePairs_logged_iff {f : Frame} :
    f.logged.machinePairs = f.machinePairs ↔ (f.machines.getD .empty).Kept fun _ => True := by
  have hlogged : f.logged.machines.getD .empty = (f.machines.getD .empty).logged := by
    cases h : f.machines <;> simp [logged, h, Keyed.empty, Keyed.logged]
  rw [machinePairs, hlogged]
  exact Keyed.normalize_logged_iff fun _ => iff_of_true rfl trivial

end Frame

end FrameScope
