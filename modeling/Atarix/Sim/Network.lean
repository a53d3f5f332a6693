import Atarix.Foundation.Interleaving
import Atarix.Sim.HeaderIntegrity

/-! # Nodes and endpoints over one channel

Any number of nodes send, any number of endpoints receive, and packets lie in
storage that the channel may read late, read twice or write over. A run is any
order of these events. Each endpoint takes what it would take of its own deliveries
alone, the counters of a node count its own sends and receipts, and two orders in
which everyone does the same end alike.
-/

namespace Atarix

open Interleaving

/-- An endpoint as memory holds it: a pointer to its node, and its window. -/
structure SimAttachedEndpoint (NodePtr : Type) where
  node : Option NodePtr
  rxWindow : SequenceWindow

/-- When a delivery is taken. -/
theorem simMailboxReceive_ok_iff (endpoint : SimMailboxEndpoint) (packet : SimMailboxPacket) :
    (simMailboxReceive (some endpoint) (some packet)).1 = .ok ↔
      endpoint.node.isSome ∧ packet.Valid ∧ endpoint.rxWindow.Expects packet.header.sequence := by
  constructor
  · intro hok
    rcases simMailboxReceive_cases endpoint (some packet) with
      ⟨delivered, node, hdelivered, hnode, hvalid, hexpects, -⟩ | ⟨status, hstatus, hreceive⟩
    · obtain rfl := Option.some.inj hdelivered
      exact ⟨by simp [hnode], hvalid, hexpects⟩
    · rw [hreceive] at hok
      exact absurd hok hstatus
  · rintro ⟨hnode, hvalid, hexpects⟩
    obtain ⟨node, hnode⟩ := Option.isSome_iff_exists.mp hnode
    have hheader : mailboxValidateHeader (some packet.header) packet.payload
        packet.payloadLength = .ok := hvalid
    simp only [simMailboxReceive, hnode, hheader, SequenceWindow.accept_of_expects hexpects]

namespace SimAttachedEndpoint

variable {NodePtr : Type} (endpoint : SimAttachedEndpoint NodePtr) (packet : SimMailboxPacket)

/-- The endpoint has a node, and the packet is valid and the one its window expects. -/
def Takes : Prop :=
  endpoint.node.isSome ∧ packet.Valid ∧ endpoint.rxWindow.Expects packet.header.sequence

instance : Decidable (endpoint.Takes packet) :=
  inferInstanceAs (Decidable (_ ∧ (_ = _) ∧ (_ → _)))

/-- The endpoint with its window at the packet. -/
def moved : SimAttachedEndpoint NodePtr :=
  { endpoint with rxWindow := ⟨packet.header.sequence, true⟩ }

/-- The endpoint after a delivery. -/
def take : SimAttachedEndpoint NodePtr :=
  if endpoint.Takes packet then endpoint.moved packet else endpoint

/-- The packet, if it is taken. -/
def taken : Option SimMailboxPacket := if endpoint.Takes packet then some packet else none

end SimAttachedEndpoint

/-- An endpoint in memory and one by value with a node where it has one. -/
structure SimAttachedEndpoint.SeenAs {NodePtr : Type} (endpoint : SimAttachedEndpoint NodePtr)
    (value : SimMailboxEndpoint) : Prop where
  node : value.node.isSome = endpoint.node.isSome
  rxWindow : value.rxWindow = endpoint.rxWindow

/-- By induction on the deliveries: what the node counts does not show in what is taken. -/
theorem SimAttachedEndpoint.SeenAs.run {NodePtr : Type} {endpoint : SimAttachedEndpoint NodePtr}
    {value : SimMailboxEndpoint} (hseen : endpoint.SeenAs value)
    (deliveries : List SimMailboxPacket) :
    simMailboxAccepted value (deliveries.map some) =
        log take taken endpoint deliveries ∧
      (Interleaving.run take endpoint deliveries).SeenAs
        (simMailboxRun value (deliveries.map some)) := by
  induction deliveries generalizing endpoint value with
  | nil => exact ⟨rfl, hseen⟩
  | cons packet rest ih =>
      have hok := simMailboxReceive_ok_iff value packet
      rw [hseen.node, hseen.rxWindow] at hok
      rw [List.map_cons, log_cons, run_cons, taken, take]
      rcases simMailboxReceive_cases value (some packet) with
        ⟨received, node, hreceived, hnode, -, -, hstep⟩ | ⟨status, hstatus, hstep⟩
      · obtain rfl := Option.some.inj hreceived
        have htakes : endpoint.Takes packet := by
          rw [hstep] at hok
          exact hok.mp rfl
        have hmoved : (endpoint.moved packet).SeenAs
            ⟨some (simNodeRecordRx node), ⟨packet.header.sequence, true⟩⟩ := by
          refine ⟨?_, rfl⟩
          rw [moved, ← hseen.node, hnode]
          rfl
        rw [simMailboxAccepted_cons_taken _ rfl hstep, simMailboxRun_cons _ hstep, if_pos htakes,
          if_pos htakes, (ih hmoved).1]
        exact ⟨rfl, (ih hmoved).2⟩
      · have htakes : ¬ endpoint.Takes packet := by
          rw [hstep] at hok
          exact fun htakes => hstatus (hok.mpr htakes)
        rw [simMailboxAccepted_cons_refused _ hstatus hstep, simMailboxRun_cons _ hstep,
          if_neg htakes, if_neg htakes, (ih hseen).1]
        exact ⟨rfl, (ih hseen).2⟩

/-- The objects of a simulation, by their addresses. -/
@[ext] structure SimNetwork (NodePtr EndpointPtr PacketPtr : Type) where
  nodes : NodePtr → SimNode
  endpoints : EndpointPtr → SimAttachedEndpoint NodePtr
  packets : PacketPtr → SimMailboxPacket

/-- One call, or a packet written over by the channel. -/
inductive SimNetworkEvent (NodePtr EndpointPtr PacketPtr : Type) where
  | send (source : NodePtr) (packet : PacketPtr) (type : BitVec 16) (sequence : BitVec 32)
      (payload : Option Memory) (payloadLength : BitVec 16)
  | receive (destination : EndpointPtr) (packet : PacketPtr)
  | overwrite (packet : PacketPtr) (contents : SimMailboxPacket)

namespace SimNetwork

variable {NodePtr EndpointPtr PacketPtr : Type} [DecidableEq NodePtr] [DecidableEq EndpointPtr]
  [DecidableEq PacketPtr]

/-- The endpoint that a call sees through its pointer. -/
def endpoint (net : SimNetwork NodePtr EndpointPtr PacketPtr) (destination : EndpointPtr) :
    SimMailboxEndpoint :=
  ⟨(net.endpoints destination).node.map net.nodes, (net.endpoints destination).rxWindow⟩

/-- What a receipt writes back: the window, and the node if there is one. -/
def writeBack (net : SimNetwork NodePtr EndpointPtr PacketPtr) (destination : EndpointPtr)
    (after : SimMailboxEndpoint) : SimNetwork NodePtr EndpointPtr PacketPtr where
  nodes := match (net.endpoints destination).node, after.node with
    | some node, some value => Function.update net.nodes node value
    | _, _ => net.nodes
  endpoints := Function.update net.endpoints destination
    { net.endpoints destination with rxWindow := after.rxWindow }
  packets := net.packets

/-- The status that an event returns and the objects after it. -/
def step (net : SimNetwork NodePtr EndpointPtr PacketPtr) :
    SimNetworkEvent NodePtr EndpointPtr PacketPtr →
      MailboxStatus × SimNetwork NodePtr EndpointPtr PacketPtr
  | .send source packet type sequence payload payloadLength =>
    let (status, node, stamped) := simMailboxSend (some (net.nodes source))
      (some (net.packets packet)) type sequence payload payloadLength
    (status,
      { net with
        nodes := Function.update net.nodes source (node.getD (net.nodes source))
        packets := Function.update net.packets packet (stamped.getD (net.packets packet)) })
  | .receive destination packet =>
    let (status, after) := simMailboxReceive (some (net.endpoint destination))
      (some (net.packets packet))
    (status, net.writeBack destination (after.getD (net.endpoint destination)))
  | .overwrite packet contents =>
    (.ok, { net with packets := Function.update net.packets packet contents })

def next (net : SimNetwork NodePtr EndpointPtr PacketPtr)
    (event : SimNetworkEvent NodePtr EndpointPtr PacketPtr) :
    SimNetwork NodePtr EndpointPtr PacketPtr :=
  (net.step event).2

/-- The network after events. -/
abbrev after (net : SimNetwork NodePtr EndpointPtr PacketPtr)
    (events : List (SimNetworkEvent NodePtr EndpointPtr PacketPtr)) :
    SimNetwork NodePtr EndpointPtr PacketPtr :=
  run next net events

/-! ## What happens in a run -/

/-- A send that returns OK: its source and the packet it makes. -/
def sends (net : SimNetwork NodePtr EndpointPtr PacketPtr) :
    SimNetworkEvent NodePtr EndpointPtr PacketPtr → Option (NodePtr × SimMailboxPacket)
  | .send source packet type sequence payload payloadLength =>
    if (net.step (.send source packet type sequence payload payloadLength)).1 = .ok then
      some (source, ((net.next (.send source packet type sequence payload payloadLength)).packets
        packet))
    else none
  | _ => none

/-- A packet that an endpoint is given, as it is then. -/
def delivers (net : SimNetwork NodePtr EndpointPtr PacketPtr) :
    SimNetworkEvent NodePtr EndpointPtr PacketPtr → Option (EndpointPtr × SimMailboxPacket)
  | .receive destination packet => some (destination, net.packets packet)
  | _ => none

/-- A delivery that returns OK. -/
def accepts (net : SimNetwork NodePtr EndpointPtr PacketPtr) :
    SimNetworkEvent NodePtr EndpointPtr PacketPtr → Option (EndpointPtr × SimMailboxPacket)
  | .receive destination packet =>
    if (net.step (.receive destination packet)).1 = .ok then
      some (destination, net.packets packet)
    else none
  | _ => none

/-- The packets under one key, in order. -/
def under {Key Value : Type} [DecidableEq Key] (wanted : Key) (entry : Key × Value) :
    Option Value :=
  if entry.1 = wanted then some entry.2 else none

theorem under_eq_some {Key Value : Type} [DecidableEq Key] {wanted : Key} {entry : Key × Value}
    {value : Value} : under wanted entry = some value ↔ entry = (wanted, value) := by
  obtain ⟨key, stored⟩ := entry
  simp [under]

variable (net : SimNetwork NodePtr EndpointPtr PacketPtr)
  (events : List (SimNetworkEvent NodePtr EndpointPtr PacketPtr))

/-- The packets that a node sends in a run. -/
def sent (source : NodePtr) : List SimMailboxPacket :=
  (log next sends net events).filterMap (under source)

/-- The packets that an endpoint is given in a run. -/
def delivered (destination : EndpointPtr) : List SimMailboxPacket :=
  (log next delivers net events).filterMap (under destination)

/-- The packets that an endpoint takes in a run. -/
def accepted (destination : EndpointPtr) : List SimMailboxPacket :=
  (log next accepts net events).filterMap (under destination)

/-! ## One event -/

section Step

/-- A send counts and stamps, or changes nothing. -/
theorem step_send (source : NodePtr) (packet : PacketPtr) (type : BitVec 16) (sequence : BitVec 32)
    (payload : Option Memory) (length : BitVec 16) :
    net.step (.send source packet type sequence payload length) =
        (.ok,
          { net with
            nodes := Function.update net.nodes source (simNodeRecordTx (net.nodes source))
            packets := Function.update net.packets packet
              ⟨builtHeader type sequence payload length, payload, length.toNat⟩ }) ∨
      ∃ status, status ≠ .ok ∧
        net.step (.send source packet type sequence payload length) = (status, net) := by
  rcases simMailboxSend_cases (some (net.nodes source)) (some (net.packets packet)) type sequence
      payload length with ⟨sender, hsource, hsend⟩ | ⟨status, hstatus, hsend⟩
  · obtain rfl := Option.some.inj hsource
    left
    simp only [step, hsend, Option.getD_some]
  · right
    refine ⟨status, hstatus, ?_⟩
    simp only [step, hsend, Option.getD_some, Function.update_eq_self]

omit [DecidableEq PacketPtr] in
theorem writeBack_of_node {destination : EndpointPtr} {node : NodePtr}
    (hnode : (net.endpoints destination).node = some node) (value : SimNode)
    (window : SequenceWindow) :
    net.writeBack destination ⟨some value, window⟩ =
      { net with
        nodes := Function.update net.nodes node value
        endpoints := Function.update net.endpoints destination
          { net.endpoints destination with rxWindow := window } } := by
  simp only [writeBack, hnode]

omit [DecidableEq PacketPtr] in
/-- Writing back what was read changes nothing. -/
theorem writeBack_self (destination : EndpointPtr) :
    net.writeBack destination (net.endpoint destination) = net := by
  apply SimNetwork.ext
  · cases hnode : (net.endpoints destination).node with
    | none => simp only [writeBack, hnode]
    | some node =>
        have hvalue : (net.endpoint destination).node = some (net.nodes node) := by
          simp only [endpoint, hnode, Option.map_some]
        simp only [writeBack, hnode, hvalue, Function.update_eq_self]
  · exact Function.update_eq_self _ _
  · rfl

/-- A delivery is taken, or it changes nothing. -/
theorem step_receive (destination : EndpointPtr) (packet : PacketPtr) :
    (∃ node, (net.endpoints destination).node = some node ∧
        (net.endpoints destination).Takes (net.packets packet) ∧
        net.step (.receive destination packet) =
          (.ok,
            { net with
              nodes := Function.update net.nodes node (simNodeRecordRx (net.nodes node))
              endpoints := Function.update net.endpoints destination
                ((net.endpoints destination).moved (net.packets packet)) })) ∨
      (¬ (net.endpoints destination).Takes (net.packets packet) ∧
        ∃ status, status ≠ .ok ∧
          net.step (.receive destination packet) = (status, net)) := by
  have htaken := simMailboxReceive_ok_iff (net.endpoint destination) (net.packets packet)
  rcases simMailboxReceive_cases (net.endpoint destination) (some (net.packets packet)) with
    ⟨delivered, value, hdelivered, hvalue, hvalid, hexpects, hreceive⟩ |
      ⟨status, hstatus, hreceive⟩
  · obtain rfl := Option.some.inj hdelivered
    obtain ⟨node, hnode, rfl⟩ := Option.map_eq_some_iff.mp hvalue
    refine .inl ⟨node, hnode, ⟨by simp [hnode], hvalid, hexpects⟩, ?_⟩
    simp only [step, hreceive, Option.getD_some, net.writeBack_of_node hnode,
      SimAttachedEndpoint.moved]
  · refine .inr ⟨fun htakes => hstatus ?_, status, hstatus, ?_⟩
    · rw [hreceive] at htaken
      exact htaken.mpr ⟨by simp [endpoint, htakes.1], htakes.2⟩
    · simp only [step, hreceive, Option.getD_some, writeBack_self]

theorem accepts_receive (destination : EndpointPtr) (packet : PacketPtr) :
    net.accepts (.receive destination packet) =
      if (net.endpoints destination).Takes (net.packets packet) then
        some (destination, net.packets packet)
      else none := by
  rcases net.step_receive destination packet with
    ⟨node, -, htakes, hstep⟩ | ⟨htakes, status, hstatus, hstep⟩
  · simp only [accepts, hstep, htakes, if_true]
  · simp only [accepts, hstep, htakes, hstatus, if_false]

end Step

/-! ## An endpoint by itself -/

section Isolation

variable {net}

/-- An event is a delivery to an endpoint, or nothing to it. -/
theorem next_endpoints (event : SimNetworkEvent NodePtr EndpointPtr PacketPtr)
    (destination : EndpointPtr) :
    (net.next event).endpoints destination =
      ((net.delivers event).bind (under destination)).elim (net.endpoints destination)
        (net.endpoints destination).take := by
  cases event with
  | send source packet type sequence payload length => rfl
  | overwrite packet contents => rfl
  | receive receiver packet =>
      rw [next, delivers, Option.bind_some, under]
      rcases net.step_receive receiver packet with
        ⟨node, -, htakes, hstep⟩ | ⟨htakes, status, -, hstep⟩
      · by_cases hsame : receiver = destination
        · subst hsame
          rw [hstep, if_pos rfl, Option.elim_some, SimAttachedEndpoint.take, if_pos htakes]
          exact Function.update_self _ _ _
        · rw [hstep, if_neg hsame]
          exact Function.update_of_ne (Ne.symm hsame) _ _
      · by_cases hsame : receiver = destination
        · subst hsame
          rw [hstep, if_pos rfl, Option.elim_some, SimAttachedEndpoint.take, if_neg htakes]
        · rw [hstep, if_neg hsame]
          rfl

theorem accepts_under (event : SimNetworkEvent NodePtr EndpointPtr PacketPtr)
    (destination : EndpointPtr) :
    (net.accepts event).bind (under destination) =
      ((net.delivers event).bind (under destination)).bind
        (net.endpoints destination).taken := by
  cases event with
  | send source packet type sequence payload length => rfl
  | overwrite packet contents => rfl
  | receive receiver packet =>
      rw [accepts_receive, delivers, Option.bind_some, under]
      by_cases hsame : receiver = destination
      · subst hsame
        rw [if_pos rfl, Option.bind_some, SimAttachedEndpoint.taken]
        split_ifs
        · exact if_pos rfl
        · rfl
      · rw [if_neg hsame, Option.bind_none]
        split_ifs
        · exact if_neg hsame
        · rfl

theorem endpoints_after (destination : EndpointPtr) :
    (net.after events).endpoints destination =
      run SimAttachedEndpoint.take (net.endpoints destination)
        (net.delivered events destination) := by
  rw [delivered, ← log_filterMap]
  exact view_run (fun net => net.endpoints destination) SimAttachedEndpoint.take
    (fun net event => next_endpoints event destination) net events

theorem accepted_eq (destination : EndpointPtr) :
    net.accepted events destination =
      log SimAttachedEndpoint.take SimAttachedEndpoint.taken (net.endpoints destination)
        (net.delivered events destination) := by
  rw [accepted, delivered, ← log_filterMap, ← log_filterMap]
  exact log_view (fun net => net.endpoints destination) SimAttachedEndpoint.take
    SimAttachedEndpoint.taken (fun net event => next_endpoints event destination)
    (fun net event => accepts_under event destination) net events

omit [DecidableEq NodePtr] [DecidableEq EndpointPtr] [DecidableEq PacketPtr] in
theorem seenAs_endpoint (net : SimNetwork NodePtr EndpointPtr PacketPtr)
    (destination : EndpointPtr) : (net.endpoints destination).SeenAs (net.endpoint destination) :=
  ⟨Option.isSome_map, rfl⟩

end Isolation

/-! ## The counters of a node -/

section Counters

variable {net}

/-- What an event does to the nodes and the endpoints. -/
inductive Happens (net : SimNetwork NodePtr EndpointPtr PacketPtr)
    (event : SimNetworkEvent NodePtr EndpointPtr PacketPtr) : Prop where
  | sent (source : NodePtr) (made : SimMailboxPacket)
      (hsends : net.sends event = some (source, made))
      (haccepts : net.accepts event = none)
      (hnodes : (net.next event).nodes =
        Function.update net.nodes source (simNodeRecordTx (net.nodes source)))
  | taken (destination : EndpointPtr) (node : NodePtr) (packet : SimMailboxPacket)
      (hsends : net.sends event = none) (haccepts : net.accepts event = some (destination, packet))
      (hnode : (net.endpoints destination).node = some node)
      (hnodes : (net.next event).nodes =
        Function.update net.nodes node (simNodeRecordRx (net.nodes node)))
  | nothing (hsends : net.sends event = none) (haccepts : net.accepts event = none)
      (hnodes : (net.next event).nodes = net.nodes)

theorem happens (event : SimNetworkEvent NodePtr EndpointPtr PacketPtr) : net.Happens event := by
  cases event with
  | overwrite packet contents => exact .nothing rfl rfl rfl
  | send source packet type sequence payload length =>
      rcases net.step_send source packet type sequence payload length with
        hstep | ⟨status, hstatus, hstep⟩
      · have hsent := congrArg Prod.fst hstep
        exact .sent source _ (by rw [sends, if_pos hsent]) rfl
          (congrArg (fun outcome => outcome.2.nodes) hstep)
      · have hrefused : (net.step (.send source packet type sequence payload length)).1 ≠ .ok := by
          rwa [hstep]
        exact .nothing (by rw [sends, if_neg hrefused]) rfl
          (congrArg (fun outcome => outcome.2.nodes) hstep)
  | receive receiver packet =>
      rcases net.step_receive receiver packet with
        ⟨node, hnode, htakes, hstep⟩ | ⟨htakes, status, -, hstep⟩
      · exact .taken receiver node _ rfl (by rw [accepts_receive, if_pos htakes]) hnode
          (congrArg (fun outcome => outcome.2.nodes) hstep)
      · exact .nothing rfl (by rw [accepts_receive, if_neg htakes])
          (congrArg (fun outcome => outcome.2.nodes) hstep)

/-- An endpoint stays with its node. -/
theorem next_pointer (event : SimNetworkEvent NodePtr EndpointPtr PacketPtr)
    (destination : EndpointPtr) :
    ((net.next event).endpoints destination).node = (net.endpoints destination).node := by
  rw [next_endpoints]
  cases (net.delivers event).bind (under destination) with
  | none => rfl
  | some packet =>
      rw [Option.elim_some, SimAttachedEndpoint.take]
      split_ifs <;> rfl

/-- The deliveries taken at endpoints of a node. -/
def receipts (net : SimNetwork NodePtr EndpointPtr PacketPtr)
    (events : List (SimNetworkEvent NodePtr EndpointPtr PacketPtr)) (node : NodePtr) : Nat :=
  (log next accepts net events).countP fun entry => (net.endpoints entry.1).node = some node

theorem sent_cons (event : SimNetworkEvent NodePtr EndpointPtr PacketPtr) (node : NodePtr) :
    net.sent (event :: events) node =
      ((net.sends event).bind (under node)).toList ++ (net.next event).sent events node := by
  rw [sent, sent, log_cons, List.filterMap_append]
  cases net.sends event with
  | none => rfl
  | some entry =>
      rw [Option.bind_some, Option.toList_some, List.filterMap_cons, List.filterMap_nil]
      cases under node entry <;> rfl

theorem receipts_cons (event : SimNetworkEvent NodePtr EndpointPtr PacketPtr) (node : NodePtr) :
    net.receipts (event :: events) node =
      (net.accepts event).toList.countP (fun entry => (net.endpoints entry.1).node = some node) +
        (net.next event).receipts events node := by
  simp only [receipts, log_cons, List.countP_append, next_pointer]

theorem count_succ (count : BitVec 32) (further : Nat) :
    count + 1 + BitVec.ofNat 32 further = count + BitVec.ofNat 32 (further + 1) := by
  rw [BitVec.ofNat_add, BitVec.add_assoc, BitVec.add_comm 1]
  rfl

/-- By induction on the events: a node counts what it sends and what its endpoints take. -/
theorem nodes_after (node : NodePtr) :
    (net.after events).nodes node =
      { net.nodes node with
        txCount := (net.nodes node).txCount + BitVec.ofNat 32 (net.sent events node).length
        rxCount := (net.nodes node).rxCount + BitVec.ofNat 32 (net.receipts events node) } := by
  induction events generalizing net with
  | nil => simp [after, sent, receipts]
  | cons event rest ih =>
      have hrest := @ih (net.next event)
      rw [after, run_cons, hrest, sent_cons, receipts_cons]
      cases net.happens event with
      | sent source made hsends haccepts hnodes =>
          rw [hsends, haccepts, hnodes, Option.bind_some, under]
          by_cases hsame : source = node
          · subst hsame
            rw [Function.update_self, if_pos rfl, simNodeRecordTx, count_succ, Option.toList_some,
              Option.toList_none, List.countP_nil, Nat.zero_add, List.length_append,
              List.length_singleton, Nat.add_comm 1]
          · rw [Function.update_of_ne (Ne.symm hsame), if_neg hsame, Option.toList_none,
              List.nil_append, Option.toList_none, List.countP_nil, Nat.zero_add]
      | taken destination owner packet hsends haccepts hnode hnodes =>
          rw [hsends, haccepts, hnodes, Option.bind_none, Option.toList_none, List.nil_append,
            Option.toList_some, List.countP_singleton, hnode]
          by_cases hsame : owner = node
          · subst hsame
            rw [Function.update_self, if_pos (decide_eq_true rfl), simNodeRecordRx, count_succ,
              Nat.add_comm 1]
          · have hother : ¬ decide (some owner = some node) = true := by simpa using hsame
            rw [Function.update_of_ne (Ne.symm hsame), if_neg hother, Nat.zero_add]
      | nothing hsends haccepts hnodes =>
          rw [hsends, haccepts, hnodes]
          simp

end Counters

/-- In any order of events, an endpoint takes what it takes of its own deliveries alone, and a
node counts its own sends and what its endpoints take, modulo the width of the counters. -/
theorem network_isolated :
    (∀ destination,
      net.accepted events destination =
          simMailboxAccepted (net.endpoint destination)
            ((net.delivered events destination).map some) ∧
        ((net.after events).endpoints destination).rxWindow =
          (simMailboxRun (net.endpoint destination)
            ((net.delivered events destination).map some)).rxWindow) ∧
      ∀ node, (net.after events).nodes node =
        { net.nodes node with
          txCount := (net.nodes node).txCount + BitVec.ofNat 32 (net.sent events node).length
          rxCount := (net.nodes node).rxCount + BitVec.ofNat 32 (net.receipts events node) } := by
  refine ⟨fun destination => ?_, nodes_after events⟩
  obtain ⟨haccepted, hwindow⟩ :=
    (seenAs_endpoint net destination).run (net.delivered events destination)
  rw [accepted_eq, endpoints_after]
  exact ⟨haccepted.symm, hwindow.rxWindow.symm⟩

/-! ## The order of the events -/

section Order

variable {net} {reordered : List (SimNetworkEvent NodePtr EndpointPtr PacketPtr)}

omit [DecidableEq NodePtr] [DecidableEq PacketPtr] in
theorem filter_eq_map_under (entries : List (EndpointPtr × SimMailboxPacket))
    (destination : EndpointPtr) :
    entries.filter (·.1 = destination) =
      (entries.filterMap (under destination)).map (destination, ·) := by
  induction entries with
  | nil => rfl
  | cons entry rest ih =>
      rw [List.filter_cons, List.filterMap_cons, under]
      by_cases hsame : entry.1 = destination
      · rw [if_pos (decide_eq_true hsame), if_pos hsame, ih, ← hsame]
        rfl
      · rw [if_neg (by simpa using hsame), if_neg hsame, ih]

/-- Runs that give every endpoint the same have the same receipts. -/
theorem receipts_eq
    (haccepted : ∀ destination, net.accepted events destination =
      net.accepted reordered destination) (node : NodePtr) :
    net.receipts events node = net.receipts reordered node := by
  have hperm : (log next accepts net events).Perm (log next accepts net reordered) := by
    refine @perm_of_filter_eq _ _ _ Prod.fst _ _ fun destination => ?_
    rw [filter_eq_map_under, filter_eq_map_under]
    exact congrArg _ (haccepted destination)
  exact hperm.countP_eq _

/-- Two orders in which every endpoint is given the same packets in the same order, and every
node sends equally often, take the same and end in the same nodes and endpoints. -/
theorem network_order_free
    (hdelivered : ∀ destination, net.delivered events destination =
      net.delivered reordered destination)
    (hsent : ∀ node, (net.sent events node).length = (net.sent reordered node).length) :
    (∀ destination, net.accepted events destination = net.accepted reordered destination) ∧
      (net.after events).endpoints = (net.after reordered).endpoints ∧
      (net.after events).nodes = (net.after reordered).nodes := by
  have haccepted : ∀ destination, net.accepted events destination =
      net.accepted reordered destination := by
    intro destination
    rw [accepted_eq, accepted_eq, hdelivered]
  refine ⟨haccepted, ?_, ?_⟩
  · funext destination
    rw [endpoints_after, endpoints_after, hdelivered]
  · funext node
    rw [nodes_after, nodes_after, hsent, receipts_eq events haccepted]

end Order

/-- Two nodes with an endpoint each, and a packet for either. -/
def twoEndpoints : SimNetwork Bool Bool Bool where
  nodes second := simNodeInit (if second then 2 else 1)
  endpoints second := ⟨some second, SequenceWindow.zeroed⟩
  packets second :=
    ⟨builtHeader MailboxMessage.ping (if second then 8 else 5) none 0, none, 0⟩

theorem network_order_free_swap :
    (twoEndpoints.after [.receive false false, .receive true true]).nodes =
      (twoEndpoints.after [.receive true true, .receive false false]).nodes := by
  have hfree := @network_order_free _ _ _ _ _ _ twoEndpoints
    [.receive false false, .receive true true] [.receive true true, .receive false false]
    (fun destination => by cases destination <;> rfl) (fun node => by cases node <;> rfl)
  exact hfree.2.2

/-! ## A channel that does not forge -/

/-- Where a stored packet comes from. -/
theorem next_packets (event : SimNetworkEvent NodePtr EndpointPtr PacketPtr)
    (address : PacketPtr) :
    (net.next event).packets address = net.packets address ∨
      (∃ source, net.sends event = some (source, (net.next event).packets address)) ∨
      event = .overwrite address ((net.next event).packets address) := by
  cases event with
  | overwrite packet contents =>
      by_cases hsame : address = packet
      · subst hsame
        right; right
        have hwritten : (net.next (.overwrite address contents)).packets address = contents :=
          Function.update_self _ _ _
        rw [hwritten]
      · left
        exact Function.update_of_ne hsame _ _
  | send source packet type sequence payload length =>
      rcases net.step_send source packet type sequence payload length with
        hstep | ⟨status, -, hstep⟩
      · by_cases hsame : address = packet
        · subst hsame
          right; left
          exact ⟨source, if_pos (congrArg Prod.fst hstep)⟩
        · left
          rw [next, hstep]
          exact Function.update_of_ne hsame _ _
      · left
        rw [next, hstep]
  | receive receiver packet =>
      left
      rfl

section Safety

variable {net}

/-- The channel may lose, repeat, reorder and damage packets, but a valid packet that it
stores was sent before. -/
def Honest (net : SimNetwork NodePtr EndpointPtr PacketPtr)
    (events : List (SimNetworkEvent NodePtr EndpointPtr PacketPtr)) : Prop :=
  ∀ earlier address contents later, events = earlier ++ .overwrite address contents :: later →
    contents.Valid → ∃ source, contents ∈ net.sent earlier source

theorem Honest.of_append {earlier later : List (SimNetworkEvent NodePtr EndpointPtr PacketPtr)}
    (hhonest : net.Honest (earlier ++ later)) : net.Honest earlier := by
  intro before address contents behind hevents
  apply hhonest before address contents (behind ++ later)
  rw [hevents, List.append_assoc, List.cons_append]

theorem sent_append (event : SimNetworkEvent NodePtr EndpointPtr PacketPtr) (source : NodePtr) :
    net.sent (events ++ [event]) source =
      net.sent events source ++ (net.after events).sent [event] source := by
  rw [sent, log_append, List.filterMap_append]
  rfl

/-- By induction on the events: valid packets in storage have been sent. -/
theorem stored_sent (hstored : ∀ address, ¬ (net.packets address).Valid)
    (hhonest : net.Honest events) (address : PacketPtr)
    (hvalid : ((net.after events).packets address).Valid) :
    ∃ source, (net.after events).packets address ∈ net.sent events source := by
  induction events using List.reverseRecOn generalizing address with
  | nil => exact absurd hvalid (hstored address)
  | append_singleton events event ih =>
      -- what the last event leaves was there before, was sent with it or, overwritten, earlier
      have hearlier : net.Honest events := hhonest.of_append
      have hafter : net.after (events ++ [event]) = (net.after events).next event :=
        run_append next net events [event]
      rw [hafter] at hvalid ⊢
      simp only [sent_append, List.mem_append]
      rcases (net.after events).next_packets event address with
        hsame | ⟨source, hsends⟩ | hwritten
      · rw [hsame] at hvalid ⊢
        obtain ⟨source, hmem⟩ := ih hearlier address hvalid
        exact ⟨source, .inl hmem⟩
      · refine ⟨source, .inr ?_⟩
        rw [sent_cons, hsends, Option.bind_some, under, if_pos rfl]
        exact List.mem_append_left _ (List.mem_singleton_self _)
      · obtain ⟨source, hmem⟩ :=
          hhonest events address _ [] (congrArg (events ++ [·]) hwritten) hvalid
        exact ⟨source, .inl hmem⟩

/-- A packet is taken out of the storage. -/
theorem accepted_sent (hstored : ∀ address, ¬ (net.packets address).Valid)
    (hhonest : net.Honest events) (destination : EndpointPtr) :
    ∀ packet ∈ net.accepted events destination, ∃ source, packet ∈ net.sent events source := by
  induction events using List.reverseRecOn with
  | nil => exact List.forall_mem_nil _
  | append_singleton events event ih =>
      have haccepted : net.accepted (events ++ [event]) destination =
          net.accepted events destination ++
            ((net.after events).accepts event).toList.filterMap (under destination) := by
        rw [accepted, log_append, List.filterMap_append, log_cons, log_nil, List.append_nil]
        rfl
      simp only [haccepted, sent_append, List.mem_append]
      rintro packet (hbefore | hlast)
      · obtain ⟨source, hsource⟩ := ih hhonest.of_append packet hbefore
        exact ⟨source, .inl hsource⟩
      · obtain ⟨entry, hentry, hunder⟩ := List.mem_filterMap.mp hlast
        obtain rfl := under_eq_some.mp hunder
        rw [Option.mem_toList] at hentry
        cases event with
        | send source address type sequence payload length => cases hentry
        | overwrite address contents => cases hentry
        | receive receiver address =>
            rw [accepts_receive] at hentry
            split_ifs at hentry with htakes
            cases hentry
            obtain ⟨source, hsource⟩ :=
              stored_sent events hstored hhonest.of_append address htakes.2.1
            exact ⟨source, .inl hsource⟩

/-- Over such a channel, at every moment, the packets an endpoint has taken are valid, each was
sent before, and their sequence numbers follow one another, so that none is taken twice. -/
theorem network_safe (hstored : ∀ address, ¬ (net.packets address).Valid)
    (hhonest : net.Honest events) (destination : EndpointPtr)
    (earlier later : List (SimNetworkEvent NodePtr EndpointPtr PacketPtr))
    (hevents : events = earlier ++ later) :
    (∀ packet ∈ net.accepted earlier destination,
        packet.Valid ∧ ∃ source, packet ∈ net.sent earlier source) ∧
      ∃ start, (net.accepted earlier destination).map SimMailboxPacket.number =
        List.range' start (net.accepted earlier destination).length := by
  subst hevents
  have halone : net.accepted earlier destination = _ := accepted_eq earlier destination
  rw [← ((seenAs_endpoint net destination).run _).1] at halone
  refine ⟨fun packet hpacket => ⟨?_, ?_⟩, ?_⟩
  · rw [halone] at hpacket
    exact simMailboxAccepted_valid _ _ packet hpacket
  · exact accepted_sent earlier hstored hhonest.of_append destination packet hpacket
  · rw [halone]
    obtain ⟨start, hnumbers, -⟩ := simMailboxAccepted_consecutive
      ((net.delivered earlier destination).map some) (net.endpoint destination)
    exact ⟨start, hnumbers⟩

end Safety

/-- The two nodes before anything was sent, with one packet to share. -/
def unsent : SimNetwork Bool Bool Unit where
  nodes := twoEndpoints.nodes
  endpoints := twoEndpoints.endpoints
  packets := fun _ => ⟨⟨0, 0, 0, 0, 0⟩, none, 0⟩

/-- One packet sent and delivered twice. -/
theorem network_safe_twice :
    ∃ start, (unsent.accepted [.send false () MailboxMessage.ping 5 none 0, .receive true (),
        .receive true ()] true).map SimMailboxPacket.number =
      List.range' start (unsent.accepted [.send false () MailboxMessage.ping 5 none 0,
        .receive true (), .receive true ()] true).length := by
  have hsafe := @network_safe _ _ _ _ _ _ unsent
    [.send false () MailboxMessage.ping 5 none 0, .receive true (), .receive true ()]
    (fun address => by cases address; unfold SimMailboxPacket.Valid; decide)
    (fun earlier address contents later hevents => by
      have hmem : SimNetworkEvent.overwrite address contents ∈
          earlier ++ .overwrite address contents :: later :=
        List.mem_append_right _ List.mem_cons_self
      rw [← hevents] at hmem
      simp at hmem)
    true _ [] (List.append_nil _).symm
  exact hsafe.2

end SimNetwork

end Atarix
