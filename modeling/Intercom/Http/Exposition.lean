import Intercom.Relay.Metrics

/-!
This module contains the text form of metrics that monitoring reads: for every family a line of help, a
line with its kind, and a line for every sample. A family without samples is left out.
-/

namespace Intercom.Metrics

inductive Kind where
  | counter
  | gauge
deriving DecidableEq

def Kind.word : Kind → String
  | counter => "counter"
  | gauge => "gauge"

structure Label where
  name : String
  value : String
deriving DecidableEq

structure Sample where
  label : Option Label := none
  value : Int
deriving DecidableEq

structure Family where
  name : String
  help : String
  kind : Kind
  samples : List Sample

def Label.text (l : Label) : String :=
  "\x7b" ++ l.name ++ "=\"" ++ l.value ++ "\"\x7d"

def Sample.text (s : Sample) (name : String) : String :=
  name ++ (s.label.map Label.text).getD "" ++ " " ++ toString s.value

def Family.lines (f : Family) : List String :=
  if f.samples.isEmpty then []
  else
    ["# HELP " ++ f.name ++ " " ++ f.help, "# TYPE " ++ f.name ++ " " ++ f.kind.word] ++
      f.samples.map (·.text f.name)

/-- A sample of a labelled family; there is none before the first event. -/
def labelled (name value : String) (count : Nat) : List Sample :=
  if count = 0 then [] else [⟨some ⟨name, value⟩, count⟩]

def counterTotal (name help : String) (samples : List Sample) : Family :=
  ⟨"walkie_" ++ name ++ "_total", help, .counter, samples⟩

def families (m : Metrics) : List Family := [
  counterTotal "authentifizierung_fehlgeschlagen"
    "Verworfene Pakete wegen fehlgeschlagener Authentifizierung"
    (labelled "art" "srtp" m.srtpFailures ++ labelled "art" "stun" m.stunFailures),
  counterTotal "datagramme_empfangen" "Empfangene Datagramme auf dem Relay-Port"
    [⟨none, m.received⟩],
  counterTotal "dtls_handshakes" "Abgeschlossene DTLS-Handshakes"
    (labelled "ergebnis" "erfolg" m.handshakesSucceeded ++
      labelled "ergebnis" "fehler" m.handshakesFailed),
  ⟨"walkie_sessions_aktiv", "Anzahl offener Sessions", .gauge, [⟨none, m.active⟩]⟩,
  counterTotal "srtp_weitergeleitet" "An andere Sessions weitergeleitete SRTP-Pakete"
    [⟨none, m.forwarded⟩],
  counterTotal "stun_bindings" "Beantwortete STUN Binding Requests" [⟨none, m.bindings⟩]]

def text (m : Metrics) : String :=
  String.join ((m.families.flatMap Family.lines).map (· ++ "\n"))

end Intercom.Metrics
