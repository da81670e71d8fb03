import Typenet.Stack.Engine

namespace Typenet

/-!
# Sending a packet

The server writes every packet over the same buffer and hands the front of it to the device.
Writing to the device is assumed to succeed, so `sendPkt` returns the bytes handed over.
-/

namespace Server

/-- `Server::send_pkt`: the write buffer it leaves behind and the bytes written to the
    device. -/
def sendPkt (writeBuf : List UInt8) (outgoing : Ipv4Packet .Out) :
    Res (List UInt8 × List UInt8) := do
  let writeBuf ← outgoing.writeInto writeBuf
  let bytes ← tryGet writeBuf (.to outgoing.totalLen.toNat)
  .ok (writeBuf, bytes)

end Server

/-- A packet that the server can send, whatever its write buffer contains. -/
structure Ipv4Packet.Sendable (packet : Ipv4Packet .Out) : Prop where
  writes : ∀ buf : List UInt8, buf.length = ETHERNET_MTU →
    (packet.writeInto buf).Yields fun b => b.length = ETHERNET_MTU
  totalLen_le : packet.totalLen.toNat ≤ ETHERNET_MTU
  sends : ∀ buf : List UInt8, buf.length = ETHERNET_MTU →
    (Server.sendPkt buf packet).Yields fun out => out.2.length = packet.totalLen.toNat

namespace Ipv4Packet

variable {router : ProtocolRouter .Out} {packet : Ipv4Packet .Out}

/-- **Which packets can be sent**: those that leave room for a header. -/
theorem sendable_iff (h : tryFromRouter router = .ok packet) :
    packet.Sendable ↔ router.size ≤ 1480 := by
  obtain ⟨rfl, htotal⟩ := tryFromRouter_eq_ok h
  have hMTU : ETHERNET_MTU = 1500 := rfl
  constructor
  · rintro ⟨-, hle, -⟩
    omega
  · intro hfit
    refine ⟨fun buf => yields_writeInto hfit, by omega, fun buf hbuf => ?_⟩
    refine (yields_writeInto hfit hbuf).bind fun writeBuf hlen => ?_
    exact (yields_tryGet hlen (by omega)).bind fun bytes hbytes => Res.yields_ok hbytes

/-- The server fails on every packet that leaves no room for a header. -/
theorem sendPkt_error (hbig : 1480 < packet.router.size) {buf : List UInt8}
    (hbuf : buf.length = ETHERNET_MTU) (out : List UInt8 × List UInt8) :
    Server.sendPkt buf packet ≠ .ok out := by
  intro h
  obtain ⟨writeBuf, hw, -⟩ := Res.bind_eq_ok.mp h
  have hfit := fits_of_writeInto hbuf hw
  omega

end Ipv4Packet

end Typenet
