import Typenet.Stack.Tcp.Connections

namespace Typenet

/-!
# Fixtures

The constants the repository's own tests are written with: one client at 10.0.0.2:1234, one
server at 10.0.0.1:80, and fixed initial sequence numbers.  Runs on concrete inputs in this
development are built from them.
-/

/-- A pair of IP addresses going from 10.0.0.2 to 10.0.0.1 in the incoming direction. -/
def IP_PAIR_IN : Ipv4AddrPair .In := ⟨⟨10, 0, 0, 2⟩, ⟨10, 0, 0, 1⟩⟩

/-- Fixed value to use as the ISN randomly chosen by the client. -/
def CLIENT_ISN : SeqPoint .In := SeqPoint.new 100

/-- Fixed value to use as the ISN randomly chosen by the server. -/
def SERVER_ISN : SeqPoint .Out := SeqPoint.new 400

/-- Connection key shared by test modules. -/
def KEY : ConnKey where
  clientIp := IP_PAIR_IN.src
  clientPort := 1234
  serverIp := IP_PAIR_IN.dst
  serverPort := 80

/-- An incoming pure ACK from the client; the sequence numbers are 0 if not overridden. -/
def CLIENT_PKT : TcpSegment .In where
  ipPair := ⟨KEY.clientIp, KEY.serverIp⟩
  ports := ⟨KEY.clientPort, KEY.serverPort⟩
  seqNum := SeqPoint.new 0
  ackNum := SeqPoint.new 0
  offsetBytes := 20
  flags := .Ack
  window := 65535
  payload := none

/-- A SYN requesting a new connection, numbered with the client's ISN. -/
def CLIENT_SYN : TcpSegment .In := { CLIENT_PKT with seqNum := CLIENT_ISN, flags := .Syn }

/-- The handshake-completing ACK. -/
def CLIENT_ACK_COMPLETING_HANDSHAKE : TcpSegment .In :=
  { CLIENT_PKT with seqNum := CLIENT_ISN + SYN_BYTE, ackNum := SERVER_ISN + SYN_BYTE }

/-- The first two bytes of a client's stream. -/
def HI : TcpPayload := ⟨[0x68, 0x69], by decide, by decide⟩

/-- The handshake-completing ACK, carrying both bytes. -/
def CLIENT_HI : TcpSegment .In := { CLIENT_ACK_COMPLETING_HANDSHAKE with payload := some HI }

/-- The FIN-ACK that follows both bytes and acknowledges both bytes of the answer. -/
def CLIENT_FIN : TcpSegment .In :=
  { CLIENT_PKT with
    seqNum := CLIENT_ISN + 3
    ackNum := SERVER_ISN + 3
    flags := .FinAck }

end Typenet
