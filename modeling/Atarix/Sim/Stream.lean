import Atarix.Foundation.InOrder
import Atarix.Sim.Network

/-! # Streams over a lossy channel

A node numbers its packets one after the other, and a new endpoint is given them by
a channel that loses, repeats and reorders. The endpoint takes a part of the stream
without gaps; sending the stream again completes it.
-/

namespace Atarix

open Interleaving

instance (packet : SimMailboxPacket) : Decidable packet.Valid :=
  inferInstanceAs (Decidable (_ = _))

/-! ## What a send makes -/

theorem simMailboxSend_valid {source : SimNode} {packet : SimMailboxPacket} {type : BitVec 16}
    {sequence : BitVec 32} {payload : Option Memory} {length : BitVec 16}
    (hok : (simMailboxSend (some source) (some packet) type sequence payload length).1 = .ok) :
    SimMailboxPacket.Valid ⟨builtHeader type sequence payload length, payload, length.toNat⟩ := by
  simp only [simMailboxSend] at hok
  split_ifs at hok with hnull
  rcases mailboxBuildHeader_cases (some packet.header) type sequence payload length with
    ⟨-, hpresent, hknown, hlength, -⟩ | ⟨status, hstatus, hbuild⟩
  · rw [SimMailboxPacket.Valid, mailboxValidateHeader_ok_iff]
    refine ⟨fun hnone => ?_, rfl, hknown, hlength, rfl, rfl⟩
    rw [hpresent hnone]
    rfl
  · rw [hbuild] at hok
    cases status <;> first | exact absurd rfl hstatus | cases hok

namespace SimNetwork

variable {NodePtr EndpointPtr PacketPtr : Type} [DecidableEq NodePtr] [DecidableEq EndpointPtr]
  [DecidableEq PacketPtr] {net : SimNetwork NodePtr EndpointPtr PacketPtr}
  {events : List (SimNetworkEvent NodePtr EndpointPtr PacketPtr)} {source : NodePtr}

theorem sends_valid {event : SimNetworkEvent NodePtr EndpointPtr PacketPtr}
    {packet : SimMailboxPacket} (hsends : net.sends event = some (source, packet)) :
    packet.Valid := by
  cases event with
  | receive destination address => cases hsends
  | overwrite address contents => cases hsends
  | send sender address type sequence payload length =>
      rw [sends] at hsends
      split_ifs at hsends with hok
      rcases net.step_send sender address type sequence payload length with
        hstep | ⟨status, hstatus, hstep⟩
      · have hmade :
            packet = ⟨builtHeader type sequence payload length, payload, length.toNat⟩ := by
          rw [next, hstep] at hsends
          cases hsends
          exact Function.update_self _ _ _
        rw [hmade]
        exact simMailboxSend_valid hok
      · rw [hstep] at hok
        exact absurd hok hstatus

theorem sent_valid : ∀ packet ∈ net.sent events source, packet.Valid := by
  induction events generalizing net with
  | nil => exact List.forall_mem_nil _
  | cons event rest ih =>
      rw [sent_cons, List.forall_mem_append]
      refine ⟨fun packet hpacket => ?_, ih⟩
      obtain ⟨entry, hentry, hunder⟩ := Option.bind_eq_some_iff.mp (Option.mem_toList.mp hpacket)
      obtain rfl := under_eq_some.mp hunder
      exact sends_valid hentry

end SimNetwork

/-! ## What an endpoint takes -/

namespace SimAttachedEndpoint

variable {NodePtr : Type} {endpoint : SimAttachedEndpoint NodePtr}

theorem taken_of_not_valid {packet : SimMailboxPacket} (hvalid : ¬ packet.Valid) :
    endpoint.taken packet = none ∧ endpoint.take packet = endpoint :=
  ⟨if_neg fun htakes => hvalid htakes.2.1, if_neg fun htakes => hvalid htakes.2.1⟩

/-- A window that has seen a packet takes the valid ones in order. -/
theorem log_of_initialized (hnode : endpoint.node.isSome)
    (hinit : endpoint.rxWindow.initialized) (deliveries : List SimMailboxPacket) :
    log take taken endpoint deliveries =
      InOrder.taken SimMailboxPacket.number (endpoint.rxWindow.lastSequence.toNat + 1)
        (deliveries.filter (·.Valid)) := by
  induction deliveries generalizing endpoint with
  | nil => rfl
  | cons packet rest ih =>
      rw [log_cons, List.filter_cons]
      by_cases hvalid : packet.Valid
      · have htakes : endpoint.Takes packet ↔
            packet.number = endpoint.rxWindow.lastSequence.toNat + 1 :=
          ⟨fun htakes => htakes.2.2 hinit, fun hnumber => ⟨hnode, hvalid, fun _ => hnumber⟩⟩
        rw [if_pos (decide_eq_true hvalid), InOrder.taken, taken, take]
        simp only [htakes]
        split_ifs with hnumber
        · have hmoved := @ih (endpoint.moved packet) hnode rfl
          rw [hmoved, ← hnumber]
          rfl
        · exact ih hnode hinit
      · obtain ⟨htaken, htake⟩ := @taken_of_not_valid _ endpoint packet hvalid
        rw [if_neg (by simpa using hvalid), htaken, htake]
        exact ih hnode hinit

/-- A new window takes the first valid packet and goes on from it. -/
theorem log_of_fresh (hnode : endpoint.node.isSome)
    (hfresh : endpoint.rxWindow.initialized = false) (deliveries : List SimMailboxPacket) :
    (deliveries.filter (·.Valid) = [] ∧ log take taken endpoint deliveries = []) ∨
      ∃ first rest, deliveries.filter (·.Valid) = first :: rest ∧
        log take taken endpoint deliveries =
          first :: InOrder.taken SimMailboxPacket.number (first.number + 1) rest := by
  induction deliveries with
  | nil => exact .inl ⟨rfl, rfl⟩
  | cons packet rest ih =>
      rw [log_cons, List.filter_cons]
      by_cases hvalid : packet.Valid
      · have htakes : endpoint.Takes packet :=
          ⟨hnode, hvalid, fun hinit => absurd (hfresh.symm.trans hinit) Bool.false_ne_true⟩
        refine .inr ⟨packet, rest.filter (·.Valid), if_pos (decide_eq_true hvalid), ?_⟩
        have hmoved := @log_of_initialized _ (endpoint.moved packet) hnode rfl rest
        rw [taken, take, if_pos htakes, if_pos htakes, hmoved]
        rfl
      · obtain ⟨htaken, htake⟩ := @taken_of_not_valid _ endpoint packet hvalid
        rw [if_neg (by simpa using hvalid), htaken, htake]
        exact ih

end SimAttachedEndpoint

namespace SimNetwork

variable {NodePtr EndpointPtr PacketPtr : Type} [DecidableEq NodePtr] [DecidableEq EndpointPtr]
  [DecidableEq PacketPtr] (net : SimNetwork NodePtr EndpointPtr PacketPtr)
  (events : List (SimNetworkEvent NodePtr EndpointPtr PacketPtr))

theorem sublist_tail_append (missed : List SimMailboxPacket) (packet : SimMailboxPacket)
    (stream : List SimMailboxPacket) :
    stream.Sublist (missed ++ packet :: stream).tail := by
  cases missed with
  | nil => exact List.Sublist.refl stream
  | cons earlier others =>
      exact (List.sublist_cons_self packet stream).trans (List.sublist_append_right others _)

/-- The packets sent are some that an endpoint missed and a stream behind them. It takes a first
part of the stream, all of it if everything sent is delivered in its order among the rest, and
misses nothing if the first valid delivery is the first packet sent. -/
structure TakesStream (sent delivered accepted missed stream : List SimMailboxPacket) : Prop where
  split : sent = missed ++ stream
  gapless : accepted <+: stream
  complete : sent.Sublist delivered → accepted = stream
  whole : delivered.find? (·.Valid) = sent.head? → missed = []

/-- A node that numbers its packets one after the other, and a channel that brings a new
endpoint only these, each any number of times and in any order, and damaged ones. -/
theorem stream_taken (source : NodePtr) (destination : EndpointPtr) (first : Nat)
    (hnode : (net.endpoints destination).node.isSome)
    (hfresh : (net.endpoints destination).rxWindow.initialized = false)
    (hnumbered : InOrder.Numbered SimMailboxPacket.number first (net.sent events source))
    (hchannel : ∀ packet ∈ net.delivered events destination, packet.Valid →
      packet ∈ net.sent events source) :
    ∃ missed stream, TakesStream (net.sent events source) (net.delivered events destination)
      (net.accepted events destination) missed stream := by
  have hvalid : (net.sent events source).filter (·.Valid) = net.sent events source := by
    apply List.filter_eq_self.mpr
    exact fun packet hpacket => decide_eq_true (sent_valid packet hpacket)
  have hpass (hsublist : (net.sent events source).Sublist (net.delivered events destination)) :
      (net.sent events source).Sublist ((net.delivered events destination).filter (·.Valid)) :=
    hvalid ▸ hsublist.filter _
  rw [accepted_eq]
  rcases SimAttachedEndpoint.log_of_fresh hnode hfresh (net.delivered events destination) with
    ⟨hnone, hlog⟩ | ⟨packet, rest, hsome, hlog⟩
  · refine ⟨[], net.sent events source, rfl, ?_, ?_, fun _ => rfl⟩
    · rw [hlog]
      exact List.nil_prefix
    · intro hsublist
      rw [hlog]
      exact (List.eq_nil_of_sublist_nil (hnone ▸ hpass hsublist)).symm
  · have hsent : ∀ other ∈ packet :: rest, other ∈ net.sent events source := by
      intro other hother
      rw [← hsome, List.mem_filter, decide_eq_true_eq] at hother
      exact hchannel other hother.1 hother.2
    -- the first packet taken is where the stream starts
    obtain ⟨missed, stream, hsplit⟩ :=
      List.append_of_mem (hsent packet List.mem_cons_self)
    rw [hsplit] at hsent hnumbered
    obtain ⟨hnumber, hstream, hfrom⟩ :=
      hnumbered.from_behind fun other hother => hsent other (List.mem_cons_of_mem _ hother)
    refine ⟨missed, packet :: stream, hsplit, ?_, ?_, ?_⟩
    · rw [hlog, List.prefix_cons_inj]
      exact InOrder.taken_prefix hstream hfrom
    · intro hsublist
      rw [hlog, InOrder.taken_of_sublist hstream hfrom]
      have htail := (hsome ▸ hpass hsublist).tail
      rw [hsplit, List.tail_cons] at htail
      exact (sublist_tail_append missed packet stream).trans htail
    · intro hhead
      rw [← List.head?_filter, hsome, List.head?_cons, hsplit] at hhead
      cases missed with
      | nil => rfl
      | cons earlier others =>
          -- the packet would have the first number and, behind others, a later one
          obtain rfl := Option.some.inj hhead
          have hearlier := (InOrder.numbered_cons.mp hnumbered).1
          rw [hearlier, List.length_cons] at hnumber
          omega

/-- Two packets, of which the first is delivered twice. -/
def repeatedDelivery : List (SimNetworkEvent Bool Bool Unit) :=
  [.send false () MailboxMessage.ping 5 none 0, .receive true (), .receive true (),
    .send false () MailboxMessage.pong 6 none 0, .receive true ()]

theorem stream_taken_repeated :
    ∃ missed stream, TakesStream (unsent.sent repeatedDelivery false)
      (unsent.delivered repeatedDelivery true) (unsent.accepted repeatedDelivery true)
      missed stream := by
  have hsent : unsent.sent repeatedDelivery false =
      [⟨builtHeader MailboxMessage.ping 5 none 0, none, 0⟩,
        ⟨builtHeader MailboxMessage.pong 6 none 0, none, 0⟩] := rfl
  have hdelivered : unsent.delivered repeatedDelivery true =
      [⟨builtHeader MailboxMessage.ping 5 none 0, none, 0⟩,
        ⟨builtHeader MailboxMessage.ping 5 none 0, none, 0⟩,
        ⟨builtHeader MailboxMessage.pong 6 none 0, none, 0⟩] := rfl
  refine stream_taken unsent repeatedDelivery false true 5 rfl rfl ?_ ?_
  · rw [hsent]
    rfl
  · rw [hsent, hdelivered]
    simp

end SimNetwork

end Atarix
