import Atarix.Sim.Mailbox
import Mathlib.Data.List.Range

/-! # Replay safety of an endpoint

Whatever a channel does to its packets, an endpoint takes a consecutive run of
sequence numbers, each once, and a refused packet leaves no trace on it. The
argument is one case lemma for a delivery and an induction on the deliveries.
-/

namespace Atarix

/-- The endpoint after a list of deliveries. -/
def simMailboxRun (endpoint : SimMailboxEndpoint) :
    List (Option SimMailboxPacket) → SimMailboxEndpoint
  | [] => endpoint
  | packet :: rest =>
    simMailboxRun ((simMailboxReceive (some endpoint) packet).2.getD endpoint) rest

/-- The packets whose delivery returns OK, in delivery order. -/
def simMailboxAccepted (endpoint : SimMailboxEndpoint) :
    List (Option SimMailboxPacket) → List SimMailboxPacket
  | [] => []
  | packet :: rest =>
    (if (simMailboxReceive (some endpoint) packet).1 = .ok then packet.toList else []) ++
      simMailboxAccepted ((simMailboxReceive (some endpoint) packet).2.getD endpoint) rest

/-- The sequence number a packet carries, as a natural number. -/
def SimMailboxPacket.number (packet : SimMailboxPacket) : Nat := packet.header.sequence.toNat

/-- A packet passes `atarix_mailbox_validate_header`. -/
def SimMailboxPacket.Valid (packet : SimMailboxPacket) : Prop :=
  mailboxValidateHeader (some packet.header) packet.payload packet.payloadLength = .ok

/-- A delivery is taken, and then it was valid and expected, or it is refused
and the endpoint keeps its window and its counters. -/
theorem simMailboxReceive_cases (endpoint : SimMailboxEndpoint)
    (delivery : Option SimMailboxPacket) :
    (∃ packet node, delivery = some packet ∧ endpoint.node = some node ∧ packet.Valid ∧
      endpoint.rxWindow.Expects packet.header.sequence ∧
      simMailboxReceive (some endpoint) delivery =
        (.ok, some ⟨some (simNodeRecordRx node), ⟨packet.header.sequence, true⟩⟩)) ∨
    ∃ status, status ≠ .ok ∧
      simMailboxReceive (some endpoint) delivery = (status, some endpoint) := by
  obtain ⟨node, window⟩ := endpoint
  cases delivery with
  | none => exact Or.inr ⟨.null, by decide, rfl⟩
  | some packet =>
      cases node with
      | none => exact Or.inr ⟨.null, by decide, rfl⟩
      | some node =>
          by_cases hvalid : packet.Valid
          · by_cases hexpects : window.Expects packet.header.sequence
            · refine Or.inl ⟨packet, node, rfl, rfl, hvalid, hexpects, ?_⟩
              simp only [simMailboxReceive, show mailboxValidateHeader _ _ _ = _ from hvalid,
                SequenceWindow.accept_of_expects hexpects, Option.getD_some]
            · obtain ⟨status, hstatus, hreject⟩ := SequenceWindow.accept_of_not_expects hexpects
              refine Or.inr ⟨status, hstatus, ?_⟩
              simp only [simMailboxReceive, show mailboxValidateHeader _ _ _ = _ from hvalid,
                hreject, Option.getD_some]
          · refine Or.inr ⟨_, hvalid, ?_⟩
            simp only [SimMailboxPacket.Valid] at hvalid
            simp only [simMailboxReceive]

section Step

variable {endpoint : SimMailboxEndpoint} {delivery : Option SimMailboxPacket}
variable (rest : List (Option SimMailboxPacket))

theorem simMailboxAccepted_cons_refused {status : MailboxStatus} (hstatus : status ≠ .ok)
    (hstep : simMailboxReceive (some endpoint) delivery = (status, some endpoint)) :
    simMailboxAccepted endpoint (delivery :: rest) = simMailboxAccepted endpoint rest := by
  simp [simMailboxAccepted, hstep, hstatus]

theorem simMailboxAccepted_cons_taken {packet : SimMailboxPacket} {next : SimMailboxEndpoint}
    (hdelivery : delivery = some packet)
    (hstep : simMailboxReceive (some endpoint) delivery = (.ok, some next)) :
    simMailboxAccepted endpoint (delivery :: rest) =
      packet :: simMailboxAccepted next rest := by
  subst hdelivery
  simp [simMailboxAccepted, hstep]

theorem simMailboxRun_cons {status : MailboxStatus} {next : SimMailboxEndpoint}
    (hstep : simMailboxReceive (some endpoint) delivery = (status, some next)) :
    simMailboxRun endpoint (delivery :: rest) = simMailboxRun next rest := by
  simp [simMailboxRun, hstep]

end Step

/-- From an initialised window on, the accepted numbers continue after the last
one and stop below `2 ^ 32`. -/
theorem simMailboxAccepted_from (deliveries : List (Option SimMailboxPacket))
    (endpoint : SimMailboxEndpoint) (hinit : endpoint.rxWindow.initialized) :
    (simMailboxAccepted endpoint deliveries).map SimMailboxPacket.number =
        List.range' (endpoint.rxWindow.lastSequence.toNat + 1)
          (simMailboxAccepted endpoint deliveries).length ∧
      endpoint.rxWindow.lastSequence.toNat +
        (simMailboxAccepted endpoint deliveries).length < 2 ^ 32 := by
  induction deliveries generalizing endpoint with
  | nil => simpa [simMailboxAccepted] using endpoint.rxWindow.lastSequence.isLt
  | cons delivery rest ih =>
      rcases simMailboxReceive_cases endpoint delivery with
        ⟨packet, node, hdelivery, _, _, hexpects, hstep⟩ | ⟨status, hstatus, hstep⟩
      · obtain ⟨hnumbers, hbound⟩ := ih ⟨some (simNodeRecordRx node),
          ⟨packet.header.sequence, true⟩⟩ rfl
        rw [simMailboxAccepted_cons_taken rest hdelivery hstep]
        have hnext : packet.number = endpoint.rxWindow.lastSequence.toNat + 1 := hexpects hinit
        simp only [List.map_cons, List.length_cons, List.range'_succ, hnumbers]
        simp only [SimMailboxPacket.number] at hnext ⊢
        refine ⟨by rw [hnext], ?_⟩
        change packet.header.sequence.toNat + _ < _ at hbound
        omega
      · rw [simMailboxAccepted_cons_refused rest hstatus hstep]
        exact ih endpoint hinit

/-- The accepted numbers of any run are consecutive. -/
theorem simMailboxAccepted_consecutive (deliveries : List (Option SimMailboxPacket))
    (endpoint : SimMailboxEndpoint) :
    ∃ start, (simMailboxAccepted endpoint deliveries).map SimMailboxPacket.number =
        List.range' start (simMailboxAccepted endpoint deliveries).length ∧
      start + (simMailboxAccepted endpoint deliveries).length ≤ 2 ^ 32 := by
  induction deliveries generalizing endpoint with
  | nil => exact ⟨0, rfl, by simp [simMailboxAccepted]⟩
  | cons delivery rest ih =>
      rcases simMailboxReceive_cases endpoint delivery with
        ⟨packet, node, hdelivery, _, _, _, hstep⟩ | ⟨status, hstatus, hstep⟩
      · -- the first accepted packet initialises the window
        obtain ⟨hnumbers, hbound⟩ := simMailboxAccepted_from rest
          ⟨some (simNodeRecordRx node), ⟨packet.header.sequence, true⟩⟩ rfl
        rw [simMailboxAccepted_cons_taken rest hdelivery hstep]
        refine ⟨packet.number, ?_, ?_⟩
        · simp only [List.map_cons, List.length_cons, List.range'_succ, hnumbers]
          rfl
        · simp only [List.length_cons, SimMailboxPacket.number] at hbound ⊢
          omega
      · rw [simMailboxAccepted_cons_refused rest hstatus hstep]
        exact ih endpoint

theorem simMailboxAccepted_valid (deliveries : List (Option SimMailboxPacket))
    (endpoint : SimMailboxEndpoint) :
    ∀ packet ∈ simMailboxAccepted endpoint deliveries, packet.Valid := by
  induction deliveries generalizing endpoint with
  | nil => simp [simMailboxAccepted]
  | cons delivery rest ih =>
      rcases simMailboxReceive_cases endpoint delivery with
        ⟨packet, node, hdelivery, _, hvalid, _, hstep⟩ | ⟨status, hstatus, hstep⟩
      · rw [simMailboxAccepted_cons_taken rest hdelivery hstep]
        intro other hother
        rcases List.mem_cons.mp hother with rfl | hrest
        · exact hvalid
        · exact ih _ other hrest
      · rw [simMailboxAccepted_cons_refused rest hstatus hstep]
        exact ih endpoint

/-- The receive counter advances by the number of accepted packets, modulo its
width, and the transmit counter not at all. -/
theorem simMailboxRun_node (deliveries : List (Option SimMailboxPacket))
    (endpoint : SimMailboxEndpoint) :
    (simMailboxRun endpoint deliveries).node = endpoint.node.map fun node =>
      { node with rxCount := node.rxCount +
          BitVec.ofNat 32 (simMailboxAccepted endpoint deliveries).length } := by
  induction deliveries generalizing endpoint with
  | nil => simp [simMailboxRun, simMailboxAccepted]
  | cons delivery rest ih =>
      rcases simMailboxReceive_cases endpoint delivery with
        ⟨packet, node, hdelivery, hnode, _, _, hstep⟩ | ⟨status, hstatus, hstep⟩
      · rw [simMailboxAccepted_cons_taken rest hdelivery hstep, simMailboxRun_cons rest hstep,
          ih, hnode]
        simp only [Option.map_some, simNodeRecordRx, List.length_cons, BitVec.ofNat_add,
          BitVec.add_assoc]
        rw [BitVec.add_comm 1]
        rfl
      · rw [simMailboxAccepted_cons_refused rest hstatus hstep, simMailboxRun_cons rest hstep]
        exact ih endpoint

/-- Replay safety of every run after `atarix_sim_mailbox_endpoint_init`. -/
theorem simMailbox_replay_safe (prior : SimMailboxEndpoint) (node : Option SimNode)
    (deliveries : List (Option SimMailboxPacket)) :
    ∃ endpoint, simMailboxEndpointInit (some prior) node = some endpoint ∧
      (∃ start, (simMailboxAccepted endpoint deliveries).map SimMailboxPacket.number =
          List.range' start (simMailboxAccepted endpoint deliveries).length ∧
        start + (simMailboxAccepted endpoint deliveries).length ≤ 2 ^ 32) ∧
      (∀ packet ∈ simMailboxAccepted endpoint deliveries, packet.Valid) ∧
      ((simMailboxRun endpoint deliveries).node = node.map fun node =>
        { node with rxCount := node.rxCount +
            BitVec.ofNat 32 (simMailboxAccepted endpoint deliveries).length }) ∧
      ∀ before delivery after, deliveries = before ++ delivery :: after →
        let current := simMailboxRun endpoint before
        let outcome := simMailboxReceive (some current) delivery
        (outcome.1 = .ok → ∃ receiver, current.node = some receiver ∧
          outcome.2.bind SimMailboxEndpoint.node =
            some { receiver with rxCount := receiver.rxCount + 1 }) ∧
        (outcome.1 ≠ .ok → outcome.2 = some current) := by
  refine ⟨⟨node, SequenceWindow.zeroed⟩, rfl, simMailboxAccepted_consecutive _ _,
    simMailboxAccepted_valid _ _, simMailboxRun_node _ _, ?_⟩
  intro before delivery after _ current outcome
  rcases simMailboxReceive_cases current delivery with
    ⟨packet, receiver, _, hnode, _, _, hstep⟩ | ⟨status, hstatus, hstep⟩
  · have houtcome : outcome = _ := hstep
    rw [houtcome]
    exact ⟨fun _ => ⟨receiver, hnode, rfl⟩, fun hne => absurd rfl hne⟩
  · have houtcome : outcome = _ := hstep
    rw [houtcome]
    exact ⟨fun hok => absurd hok hstatus, fun _ => rfl⟩

end Atarix
