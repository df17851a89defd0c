import Intercom.Settings.Reading

/-!
This module contains the command line: it reads the settings file and says where the server listens.
-/

namespace Intercom

def standardPath : String := "config.toml"

def readFile? (path : String) : IO (Option Bytes) := do
  try
    let content ← IO.FS.readBinFile path
    return some content.toList
  catch
    | .noFileOrDirectory .. => return none
    | e => throw e

def Settings.Error.report (path : String) : Settings.Error → String
  | .notText => "Konfigurationsdatei '" ++ path ++ "' nicht lesbar"
  | .notToml => "Konfigurationsfehler in '" ++ path ++ "'"
  | .fault f => "Ungueltige Konfiguration in '" ++ path ++ "': " ++ f.message

def reportEndpoint (part : String) : Except Settings.BindError (Option Endpoint) → String
  | .error e => part ++ ": " ++ e.message
  | .ok none => part ++ ": -"
  | .ok (some e) => part ++ ": " ++ Hex.ofBytes e.ip.bytes ++ " " ++ toString e.port.toNat

end Intercom

open Intercom in
def main (args : List String) : IO UInt32 := do
  let path := args.headD standardPath
  match Settings.ofFile (← readFile? path) with
  | .error e =>
    IO.eprintln (e.report path)
    return 1
  | .ok s =>
    IO.println (reportEndpoint "relay" (s.relayEndpoint.map some))
    IO.println (reportEndpoint "stun" s.stunEndpoint)
    IO.println (reportEndpoint "signaling" (s.signalingEndpoint.map some))
    return 0
