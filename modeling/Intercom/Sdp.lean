import Intercom.Text.Blank

/-!
This module contains the search for ICE parameters in a session description. The parameter behind a
marker is the word that follows it, after any white space, even across line ends.
-/

namespace Intercom

structure IceParameters where
  ufrag : String
  pwd : String
deriving DecidableEq

namespace Sdp

def afterMarker? : (marker text : List Char) → Option (List Char)
  | [], text => some text
  | _ :: _, [] => none
  | m :: marker, c :: text => if m = c then afterMarker? marker text else none

def word? (text : List Char) : Option (List Char) :=
  match (text.dropWhile Text.isBlank).takeWhile (!Text.isBlank ·) with
  | [] => none
  | word => some word

def find? (marker : List Char) : List Char → Option (List Char)
  | [] => (afterMarker? marker []).bind word?
  | c :: text =>
    match (afterMarker? marker (c :: text)).bind word? with
    | some word => some word
    | none => find? marker text

def ufragMarker : List Char := "a=ice-ufrag:".toList

def pwdMarker : List Char := "a=ice-pwd:".toList

def iceParameters? (text : String) : Option IceParameters := do
  let ufrag ← find? ufragMarker text.toList
  let pwd ← find? pwdMarker text.toList
  return ⟨String.ofList ufrag, String.ofList pwd⟩

end Sdp

end Intercom
