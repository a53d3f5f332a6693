import Atarix.Foundation.Registry
import Atarix.Sim.Mailbox

/-! # The simulated fabric

`sim_fabric.c`: a table of 256 slots in which nodes are attached under the id
they have at that moment, and looked up by it. A slot keeps the id and a pointer
to the node, so what happens to the node's own id later does not show.
-/

namespace Atarix

/-- `atarix_sim_fabric_status_t`. -/
inductive SimFabricStatus where
  | ok
  | null
  | duplicateNode
  | full
  | notFound
deriving DecidableEq, Repr

def simFabricMaxNodes : Nat := 256

/-- `atarix_sim_fabric_slot_t`, over the pointers to nodes. -/
structure SimFabricSlot (NodePtr : Type) where
  nodeId : BitVec 32
  node : Option NodePtr
deriving DecidableEq, Repr

/-- `atarix_sim_fabric_t`, with a count that stays in the table. -/
structure SimFabric (NodePtr : Type) where
  slots : Fin simFabricMaxNodes → SimFabricSlot NodePtr
  nodeCount : Nat
  nodeCount_le : nodeCount ≤ simFabricMaxNodes

variable {NodePtr : Type}

/-- The slots that the loops go through, those below the count. -/
def SimFabric.used (fabric : SimFabric NodePtr) : List (SimFabricSlot NodePtr) :=
  List.ofFn fun index : Fin fabric.nodeCount => fabric.slots (index.castLE fabric.nodeCount_le)

def simFabricInit (fabric : Option (SimFabric NodePtr)) : Option (SimFabric NodePtr) :=
  fabric.map fun _ => ⟨fun _ => ⟨0, none⟩, 0, Nat.zero_le _⟩

/-- Returns the status and the fabric afterwards; `nodes` are the nodes as memory
holds them during the call. -/
def simFabricAttach (fabric : Option (SimFabric NodePtr)) (node : Option NodePtr)
    (nodes : NodePtr → SimNode) : SimFabricStatus × Option (SimFabric NodePtr) :=
  match fabric, node with
  | some fabric, some node =>
    if fabric.used.any (·.nodeId = (nodes node).nodeId) then (.duplicateNode, some fabric)
    else if hfull : fabric.nodeCount ≥ simFabricMaxNodes then (.full, some fabric)
    else
      (.ok, some
        { slots := Function.update fabric.slots ⟨fabric.nodeCount, Nat.not_le.mp hfull⟩
            ⟨(nodes node).nodeId, some node⟩
          nodeCount := fabric.nodeCount + 1
          nodeCount_le := Nat.not_le.mp hfull })
  | fabric, _ => (.null, fabric)

def simFabricLookup (fabric : Option (SimFabric NodePtr)) (nodeId : BitVec 32) : Option NodePtr :=
  match fabric with
  | none => none
  | some fabric => (fabric.used.find? (·.nodeId = nodeId)).bind SimFabricSlot.node

def simFabricNodeCount (fabric : Option (SimFabric NodePtr)) : Nat :=
  match fabric with
  | none => 0
  | some fabric => fabric.nodeCount

/-! ## Runs -/

/-- The arguments of one attach, and the nodes as they are then. -/
structure SimFabricCall (NodePtr : Type) where
  node : Option NodePtr
  nodes : NodePtr → SimNode

/-- The fabric after a list of attaches. -/
def simFabricRun (fabric : Option (SimFabric NodePtr)) :
    List (SimFabricCall NodePtr) → Option (SimFabric NodePtr)
  | [] => fabric
  | call :: rest => simFabricRun (simFabricAttach fabric call.node call.nodes).2 rest

/-- The nodes whose attaches succeed, each with its id at the time. -/
def simFabricAttached (fabric : Option (SimFabric NodePtr)) :
    List (SimFabricCall NodePtr) → List (BitVec 32 × NodePtr)
  | [] => []
  | call :: rest =>
    let result := simFabricAttach fabric call.node call.nodes
    match result.1, call.node with
    | .ok, some node => ((call.nodes node).nodeId, node) :: simFabricAttached result.2 rest
    | _, _ => simFabricAttached result.2 rest

/-! ## The registry that a fabric is -/

/-- The used slots are the entries of the registry. -/
def SimFabric.Represents (fabric : SimFabric NodePtr)
    (registry : Registry (BitVec 32) NodePtr simFabricMaxNodes) : Prop :=
  fabric.used = registry.entries.map fun entry => ⟨entry.1, some entry.2⟩

theorem SimFabric.length_used (fabric : SimFabric NodePtr) :
    fabric.used.length = fabric.nodeCount :=
  List.length_ofFn

/-- A slot written at the count is the last of the used ones. -/
theorem SimFabric.used_push (fabric : SimFabric NodePtr)
    (hroom : fabric.nodeCount < simFabricMaxNodes)
    (slot : SimFabricSlot NodePtr) :
    SimFabric.used ⟨Function.update fabric.slots ⟨fabric.nodeCount, hroom⟩ slot,
      fabric.nodeCount + 1, hroom⟩ = fabric.used ++ [slot] := by
  simp only [SimFabric.used]
  rw [List.ofFn_succ_last]
  congr 1
  · apply congrArg List.ofFn
    funext index
    exact Function.update_of_ne (fun heq => absurd (Fin.mk.inj heq) (Nat.ne_of_lt index.isLt)) _ _
  · exact congrArg (fun last => [last]) (Function.update_self _ _ _)

/-- An attach that does not succeed leaves the fabric as it was. -/
theorem simFabricAttach_unchanged {fabric : Option (SimFabric NodePtr)} {node : Option NodePtr}
    {nodes : NodePtr → SimNode} (hrefused : (simFabricAttach fabric node nodes).1 ≠ .ok) :
    (simFabricAttach fabric node nodes).2 = fabric := by
  cases fabric with
  | none => rfl
  | some fabric =>
      cases node with
      | none => rfl
      | some node =>
          simp only [simFabricAttach] at hrefused ⊢
          split_ifs at hrefused ⊢ with hduplicate hfull
          · rfl
          · rfl
          · exact absurd rfl hrefused

section Represents

variable {fabric : SimFabric NodePtr}
  {registry : Registry (BitVec 32) NodePtr simFabricMaxNodes}

theorem SimFabric.Represents.length_eq (hrepresents : fabric.Represents registry) :
    registry.entries.length = fabric.nodeCount := by
  rw [← fabric.length_used, hrepresents, List.length_map]

theorem SimFabric.Represents.ids_eq (hrepresents : fabric.Represents registry) :
    fabric.used.map SimFabricSlot.nodeId = registry.entries.map Prod.fst := by
  rw [hrepresents, List.map_map]
  rfl

/-- The loop of the lookup is a lookup in the registry. -/
theorem SimFabric.Represents.lookup_eq (hrepresents : fabric.Represents registry)
    (nodeId : BitVec 32) : simFabricLookup (some fabric) nodeId = registry.lookup nodeId := by
  rw [simFabricLookup, hrepresents, List.find?_map, Registry.lookup]
  change (Option.map _ (registry.entries.find? (Prod.fst · = nodeId))).bind _ = _
  cases registry.entries.find? (Prod.fst · = nodeId) <;> rfl

/-- An attach enters the node if the registry admits its id, and otherwise
changes nothing. -/
theorem SimFabric.Represents.attach (hrepresents : fabric.Represents registry) (node : NodePtr)
    (nodes : NodePtr → SimNode) :
    (∃ (hadmits : registry.Admits (nodes node).nodeId) (next : SimFabric NodePtr),
      simFabricAttach (some fabric) (some node) nodes = (.ok, some next) ∧
        next.Represents (registry.add node hadmits)) ∨
    ∃ status, status ≠ .ok ∧
      simFabricAttach (some fabric) (some node) nodes = (status, some fabric) := by
  simp only [simFabricAttach]
  split_ifs with hduplicate hfull
  · exact Or.inr ⟨.duplicateNode, by decide, rfl⟩
  · exact Or.inr ⟨.full, by decide, rfl⟩
  · have hnew : (nodes node).nodeId ∉ registry.entries.map Prod.fst := by
      rw [← hrepresents.ids_eq]
      simpa using hduplicate
    have hroom := Nat.not_le.mp hfull
    refine Or.inl ⟨⟨hnew, hrepresents.length_eq ▸ hroom⟩, _, rfl, ?_⟩
    unfold SimFabric.Represents
    rw [fabric.used_push hroom, hrepresents, Registry.add, List.map_append]
    rfl

/-- A run extends the registry by the attaches that succeed. -/
theorem SimFabric.Represents.run (hrepresents : fabric.Represents registry)
    (calls : List (SimFabricCall NodePtr)) :
    ∃ (final : SimFabric NodePtr) (registry' : Registry (BitVec 32) NodePtr simFabricMaxNodes),
      simFabricRun (some fabric) calls = some final ∧ final.Represents registry' ∧
        registry'.entries = registry.entries ++ simFabricAttached (some fabric) calls := by
  induction calls generalizing fabric registry with
  | nil => exact ⟨fabric, registry, rfl, hrepresents, (List.append_nil _).symm⟩
  | cons call rest ih =>
      obtain ⟨node, nodes⟩ := call
      cases node with
      | none => exact ih hrepresents
      | some node =>
          rcases hrepresents.attach node nodes with
            ⟨hadmits, next, hattach, hnext⟩ | ⟨status, hstatus, hattach⟩
          · obtain ⟨final, registry', hrun, hfinal, hentries⟩ := ih hnext
            refine ⟨final, registry', ?_, hfinal, ?_⟩
            · rw [simFabricRun, hattach]
              exact hrun
            · rw [hentries, simFabricAttached]
              simp only [hattach, Registry.add, List.append_assoc, List.singleton_append]
          · obtain ⟨final, registry', hrun, hfinal, hentries⟩ := ih hrepresents
            refine ⟨final, registry', ?_, hfinal, ?_⟩
            · rw [simFabricRun, hattach]
              exact hrun
            · rw [hentries, simFabricAttached]
              simp only [hattach]
              cases status with
              | ok => exact absurd rfl hstatus
              | _ => rfl

end Represents

/-- The fabric holds exactly the nodes in `attached`, each under its id there, and
refuses an attach without changing. -/
structure SimFabric.Registers (fabric : SimFabric NodePtr) (attached : List (BitVec 32 × NodePtr)) :
    Prop where
  distinct : (fabric.used.map SimFabricSlot.nodeId).Nodup
  counts : simFabricNodeCount (some fabric) = attached.length
  bounded : simFabricNodeCount (some fabric) ≤ simFabricMaxNodes
  once : (attached.map Prod.fst).Nodup
  finds : ∀ nodeId node,
    simFabricLookup (some fabric) nodeId = some node ↔ (nodeId, node) ∈ attached
  misses : ∀ nodeId,
    simFabricLookup (some fabric) nodeId = none ↔ ∀ node, (nodeId, node) ∉ attached
  refuses : ∀ node nodes, (simFabricAttach (some fabric) node nodes).1 ≠ .ok →
    (simFabricAttach (some fabric) node nodes).2 = some fabric

/-- After any attaches to a fabric that was initialised, it holds exactly the
nodes whose attaches succeeded. -/
theorem simFabric_registers (prior : SimFabric NodePtr) (calls : List (SimFabricCall NodePtr)) :
    ∃ fabric, simFabricRun (simFabricInit (some prior)) calls = some fabric ∧
      fabric.Registers (simFabricAttached (simFabricInit (some prior)) calls) := by
  have hempty : SimFabric.Represents (⟨fun _ => ⟨0, none⟩, 0, Nat.zero_le _⟩ : SimFabric NodePtr)
      Registry.empty := rfl
  obtain ⟨fabric, registry, hrun, hrepresents, hentries⟩ := hempty.run calls
  refine ⟨fabric, hrun, ?_⟩
  change registry.entries = simFabricAttached (simFabricInit (some prior)) calls at hentries
  rw [← hentries]
  exact
    { distinct := hrepresents.ids_eq ▸ registry.distinct
      counts := hrepresents.length_eq.symm
      bounded := fabric.nodeCount_le
      once := registry.distinct
      finds := fun nodeId node => by
        rw [hrepresents.lookup_eq, registry.lookup_eq_some_iff]
      misses := fun nodeId => by
        rw [hrepresents.lookup_eq, registry.lookup_eq_none_iff]
      refuses := fun _ _ => simFabricAttach_unchanged }

end Atarix
