import Atarix.Mailbox.Sequence

/-! # Simulated mailbox endpoints

`sim_node.c` and `sim_mailbox.c`: a sender that stamps packets, and a receiver
that validates each delivery before its window sees it. Deliveries come from an
arbitrary channel, so a run is any list of packets.
-/

namespace Atarix

/-- `atarix_sim_node_t`, less the name, which is only carried. -/
structure SimNode where
  nodeId : BitVec 32
  txCount : BitVec 32
  rxCount : BitVec 32
deriving DecidableEq, Repr

def simNodeInit (nodeId : BitVec 32) : SimNode := ⟨nodeId, 0, 0⟩

def simNodeRecordTx (node : SimNode) : SimNode := { node with txCount := node.txCount + 1 }

def simNodeRecordRx (node : SimNode) : SimNode := { node with rxCount := node.rxCount + 1 }

/-- `atarix_sim_mailbox_packet_t`. -/
structure SimMailboxPacket where
  header : MailboxHeader
  payload : Option Memory
  payloadLength : Nat

/-- `atarix_sim_mailbox_endpoint_t`, with the node its pointer refers to. -/
structure SimMailboxEndpoint where
  node : Option SimNode
  rxWindow : SequenceWindow
deriving DecidableEq, Repr

/-- Nothing of the prior endpoint survives. -/
def simMailboxEndpointInit (endpoint : Option SimMailboxEndpoint) (node : Option SimNode) :
    Option SimMailboxEndpoint :=
  endpoint.map fun _ => ⟨node, SequenceWindow.zeroed⟩

/-- Returns the status, and the sending node and the packet afterwards. -/
def simMailboxSend (source : Option SimNode) (packet : Option SimMailboxPacket)
    (type : BitVec 16) (sequence : BitVec 32) (payload : Option Memory)
    (payloadLength : BitVec 16) :
    MailboxStatus × Option SimNode × Option SimMailboxPacket :=
  match source, packet with
  | some source, some packet =>
    if payload.isNone ∧ payloadLength ≠ 0 then (.null, some source, some packet)
    else
      match mailboxBuildHeader (some packet.header) type sequence payload payloadLength with
      | (.ok, some header) =>
        (.ok, some (simNodeRecordTx source), some ⟨header, payload, payloadLength.toNat⟩)
      | (status, header) =>
        (status, some source, some { packet with header := header.getD packet.header })
  | source, packet => (.null, source, packet)

/-- Returns the status and the endpoint afterwards. -/
def simMailboxReceive (destination : Option SimMailboxEndpoint)
    (packet : Option SimMailboxPacket) : MailboxStatus × Option SimMailboxEndpoint :=
  match destination, packet with
  | some destination, some packet =>
    match destination.node with
    | none => (.null, some destination)
    | some node =>
      match mailboxValidateHeader (some packet.header) packet.payload packet.payloadLength with
      | .ok =>
        match mailboxSequenceAccept (some destination.rxWindow) packet.header.sequence with
        | (.ok, window) =>
          (.ok, some ⟨some (simNodeRecordRx node), window.getD destination.rxWindow⟩)
        | (status, window) =>
          (status, some { destination with rxWindow := window.getD destination.rxWindow })
      | status => (status, some destination)
  | destination, _ => (.null, destination)

end Atarix
