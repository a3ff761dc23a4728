import FrameScope.Collection.Keyed
import FrameScope.Log.Entry

/-!
# Frames

A frame is a snapshot of the whole system after one step. Nearly everything in it may be absent,
so that older exports load too.

* `Replica`, `Account`, `Machine`, `Gossip`, `StepInput`: what a frame is made of;
* `Frame`: the snapshot;
* `Frame.withLog`, `Frame.withReplica`, `Frame.withMachine`: building one up.
-/

namespace FrameScope

/-- A step number; it only ever rises, gaps are allowed. -/
abbrev Height := Nat

/-! ## Parts -/

/-- A bilateral account between an entity and one counterparty. -/
structure Account where
  counterparty : String := ""
  height : Nat := 0
  /-- Changes keyed by token. -/
  deltas : Keyed Json := .empty
  mempool : List Json := []
  deriving Inhabited

/-- The state of one entity as one of its signers sees it. -/
structure Replica where
  entity : String := ""
  signer : String := ""
  height : Nat := 0
  /-- Balances keyed by token. -/
  reserves : Keyed Amount := .empty
  /-- Accounts keyed by counterparty. -/
  accounts : Keyed Account := .empty
  mempool : List Json := []
  insuranceLines : List Json := []
  debts : List Json := []
  deriving Inhabited

/-- The state of a jurisdiction's chain. -/
structure Machine where
  name : String := ""
  chain : Option Nat := none
  block : Nat := 0
  entities : List Json := []
  deriving Inhabited

/-- The commands a step consumed. -/
structure StepInput where
  transactions : List Json := []
  entityInputs : List Json := []
  deriving Inhabited

/-- What one entity announces about itself. -/
structure Profile where
  entity : String
  name : Option String := none
  capabilities : List String := []
  hubs : List String := []
  deriving Inhabited, DecidableEq

/-- Announcements known at a step. -/
structure Gossip where
  profiles : List Profile := []
  deriving Inhabited, DecidableEq

/-- A snapshot of the whole system after a step. -/
structure Frame where
  height : Height
  /-- Creation time in milliseconds. -/
  timestamp : Nat := 0
  /-- Replicas keyed by `entity:signer`. -/
  replicas : Option (Keyed Replica) := none
  /-- Jurisdictions keyed by name. -/
  machines : Option (Keyed Machine) := none
  logs : List LogEntry := []
  input : Option StepInput := none
  outputs : List Json := []
  gossip : Option Gossip := none
  deriving Inhabited

/-! ## Documents -/

def Account.write (a : Account) : Node :=
  .map ([(.name "counterpartyId", .text a.counterparty), (.name "height", .int a.height),
    (.name "deltas", a.deltas.write)] ++ nonemptyEntry "mempool" a.mempool)

def Account.fields : List (Field Account) :=
  [ .may "counterpartyId" Read.text fun x a => { a with counterparty := x },
    .may "height" Read.word fun x a => { a with height := x },
    .may "deltas" Keyed.read fun x a => { a with deltas := x },
    .may "mempool" (Read.list Read.json) fun x a => { a with mempool := x } ]

instance : Coded Account := ⟨Read.record Account.fields {}, Account.write⟩

def Replica.write (r : Replica) : Node :=
  .map ([(.name "entityId", .text r.entity), (.name "signerId", .text r.signer),
    (.name "height", .int r.height), (.name "reserves", r.reserves.write),
    (.name "accounts", r.accounts.write)] ++ nonemptyEntry "mempool" r.mempool
    ++ nonemptyEntry "insuranceLines" r.insuranceLines ++ nonemptyEntry "debts" r.debts)

def Replica.fields : List (Field Replica) :=
  [ .may "entityId" Read.text fun x r => { r with entity := x },
    .may "signerId" Read.text fun x r => { r with signer := x },
    .may "height" Read.word fun x r => { r with height := x },
    .may "reserves" Keyed.read fun x r => { r with reserves := x },
    .may "accounts" Keyed.read fun x r => { r with accounts := x },
    .may "mempool" (Read.list Read.json) fun x r => { r with mempool := x },
    .may "insuranceLines" (Read.list Read.json) fun x r => { r with insuranceLines := x },
    .may "debts" (Read.list Read.json) fun x r => { r with debts := x } ]

instance : Coded Replica := ⟨Read.record Replica.fields {}, Replica.write⟩

def Machine.write (m : Machine) : Node :=
  .map ([(.name "name", .text m.name)] ++ optionalEntry "chainId" m.chain
    ++ [(.name "blockNumber", .int m.block)] ++ nonemptyEntry "entities" m.entities)

def Machine.fields : List (Field Machine) :=
  [ .may "name" Read.text fun x m => { m with name := x },
    .may "chainId" (Read.option Read.word) fun x m => { m with chain := x },
    .may "blockNumber" Read.word fun x m => { m with block := x },
    .may "entities" (Read.list Read.json) fun x m => { m with entities := x } ]

instance : Coded Machine := ⟨Read.record Machine.fields {}, Machine.write⟩

def StepInput.write (i : StepInput) : Node :=
  .map (nonemptyEntry "runtimeTxs" i.transactions ++ nonemptyEntry "entityInputs" i.entityInputs)

def StepInput.fields : List (Field StepInput) :=
  [ .may "runtimeTxs" (Read.list Read.json) fun x i => { i with transactions := x },
    .may "entityInputs" (Read.list Read.json) fun x i => { i with entityInputs := x } ]

instance : Coded StepInput := ⟨Read.record StepInput.fields {}, StepInput.write⟩

def Profile.write (p : Profile) : Node :=
  .map ([(.name "entityId", .text p.entity)] ++ optionalEntry "name" p.name
    ++ nonemptyEntry "capabilities" p.capabilities ++ nonemptyEntry "hubs" p.hubs)

def Profile.fields : List (Field Profile) :=
  [ .must "entityId" Read.text fun x p => { p with entity := x },
    .may "name" (Read.option Read.text) fun x p => { p with name := x },
    .may "capabilities" (Read.list Read.text) fun x p => { p with capabilities := x },
    .may "hubs" (Read.list Read.text) fun x p => { p with hubs := x } ]

instance : Coded Profile := ⟨Read.record Profile.fields { entity := "" }, Profile.write⟩

def Gossip.write (g : Gossip) : Node := .map [(.name "profiles", .seq (g.profiles.map Coded.write))]

def Gossip.fields : List (Field Gossip) :=
  [ .may "profiles" (Read.list Coded.read) fun x g => { g with profiles := x } ]

instance : Coded Gossip := ⟨Read.record Gossip.fields {}, Gossip.write⟩

namespace Frame

def fields : List (Field Frame) :=
  [ .must "height" Read.word fun x f => { f with height := x },
    .may "timestamp" Read.word fun x f => { f with timestamp := x },
    .may "replicas" (Read.option Keyed.read) fun x f => { f with replicas := x },
    (Field.may "jMachines" (Read.option Keyed.read)
      fun x f => { f with machines := x }).orNamed ["xlnomies"],
    .may "logs" (Read.list Coded.read) fun x f => { f with logs := x },
    .may "runtimeInput" (Read.option Coded.read) fun x f => { f with input := x },
    .may "runtimeOutputs" (Read.list Read.json) fun x f => { f with outputs := x },
    .may "gossip" (Read.option Coded.read) fun x f => { f with gossip := x } ]

def write (f : Frame) : Node :=
  .map ([(.name "height", .int f.height), (.name "timestamp", .int f.timestamp)]
    ++ optionalEntry "replicas" f.replicas ++ optionalEntry "jMachines" f.machines
    ++ [(.name "logs", .seq (f.logs.map Coded.write))] ++ optionalEntry "runtimeInput" f.input
    ++ nonemptyEntry "runtimeOutputs" f.outputs ++ optionalEntry "gossip" f.gossip)

instance : Coded Frame := ⟨Read.record fields { height := 0 }, write⟩

/-! ## Building -/

def withLog (f : Frame) (e : LogEntry) : Frame := { f with logs := f.logs ++ [e] }

def withReplica (f : Frame) (key : String) (r : Replica) : Frame :=
  { f with replicas := some ((f.replicas.getD .empty).insert key r) }

def withMachine (f : Frame) (name : String) (m : Machine) : Frame :=
  { f with machines := some ((f.machines.getD .empty).insert name m) }

def replicaPairs (f : Frame) : List (String × Replica) := (f.replicas.getD .empty).normalize

def machinePairs (f : Frame) : List (String × Machine) := (f.machines.getD .empty).normalize

end Frame

end FrameScope
