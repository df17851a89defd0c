import Intercom.Rtp
import Intercom.Srtp.KeyingMaterial

/-!
This module contains the protection of RTP packets under the keys of a session.
-/

namespace Intercom.Srtp

inductive Error where
  | noKeys
  /-- No RTP packet, or none with room for a tag. -/
  | notRtp
  | wrongTag
deriving DecidableEq

def Error.message : Error → String
  | noKeys => "Keine SRTP-Schluessel gesetzt"
  | notRtp => "Protokollfehler: Kein RTP-Paket"
  | wrongTag => "SRTP-Authentifizierung fehlgeschlagen (falscher Auth-Tag)"

structure Keys where
  send : Direction
  receive : Direction
deriving DecidableEq

def Keys.ofMasters (masters : MasterPair) : Keys :=
  ⟨.ofMaster masters.send, .ofMaster masters.receive⟩

namespace Direction

def protect (d : Direction) (p : Rtp.Packet) : Bytes :=
  let packet := p.header ++ CounterMode.apply d.keys.key (d.start p.source p.sequenceNumber) p.payload
  packet ++ d.tag packet

/-- Checks the tag before anything is decrypted. -/
def unprotect (d : Direction) (datagram : Bytes) : Except Error Rtp.Packet :=
  match Rtp.decode? datagram with
  | none => .error .notRtp
  | some p =>
    if p.payload.length < tagLength then .error .notRtp
    else
      let authenticated := datagram.take (datagram.length - tagLength)
      if d.tag authenticated ≠ datagram.drop (datagram.length - tagLength) then .error .wrongTag
      else
        let sealed := p.payload.take (p.payload.length - tagLength)
        .ok { p with
          payload := CounterMode.apply d.keys.key (d.start p.source p.sequenceNumber) sealed }

end Direction

structure Context where
  keys : Option Keys := none
deriving DecidableEq

namespace Context

def hasKeys (c : Context) : Bool :=
  c.keys.isSome

def protect (c : Context) (p : Rtp.Packet) : Except Error Bytes :=
  match c.keys with
  | none => .error .noKeys
  | some keys => .ok (keys.send.protect p)

def unprotect (c : Context) (datagram : Bytes) : Except Error Rtp.Packet :=
  match c.keys with
  | none => .error .noKeys
  | some keys => keys.receive.unprotect datagram

end Context

end Intercom.Srtp
