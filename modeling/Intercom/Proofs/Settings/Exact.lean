import Mathlib
import Intercom.Server
import Intercom.Settings.Reading

/-!
This module contains which numbers of a settings file reach the handshakes: all of them as they are written, and the
validity of the certificate in seconds as long as these fit 64 bits. The number of days is not checked, so a file with
more of them is accepted and then no server starts.
-/

namespace Intercom

open Toml (Fields Value)

variable {f : Fields} {v : Value} {place bound n : Nat} {name : String} {content : Option Bytes} {s : Settings}

/-- The fields give this number under a name, or nothing there and the number is the standard. -/
def Toml.Fields.Gives (f : Fields) (place : Nat) (name : String) (standard n : Nat) : Prop :=
  match f.get? place name with
  | some v => v = .integer n
  | none => n = standard

structure Toml.Fields.GivesLine (f : Fields) (line : Handshake.Settings) (days : Nat) : Prop where
  readTimeout : f.Gives 0 "lese_timeout_ms" 3000 line.readTimeout
  mtu : f.Gives 1 "mtu" 1422 line.mtu
  maxTimeouts : f.Gives 2 "max_timeouts" 5 line.maxTimeouts
  days : f.Gives 3 "zertifikat_gueltigkeit_tage" 30 days
  queueCapacity : f.Gives 4 "eingangs_warteschlange" 64 line.queueCapacity

/-- The fields of the handshake section; none if there is no such section. -/
def Toml.Fields.handshake? (root : Fields) : Option Fields :=
  match root.get? 3 "dtls" with
  | none => some (.named [])
  | some v => ofValue? v

def handshakeFields? : (content : Option Bytes) → Option Fields
  | none => some (.named [])
  | some content => do
    let root ← Toml.ofText? (← Utf8.decode? content)
    (Fields.named root).handshake?

/-- The most days whose seconds fit 64 bits. -/
def HandshakeSettings.maxDays : Nat := 213503982334601

section Reading

theorem asNat?_eq_some_iff : v.asNat? bound = some n ↔ v = .integer n ∧ n < bound := by
  cases v with
  | integer z =>
    unfold Value.asNat?
    dsimp only
    constructor
    . intro h
      split at h
      . next hz =>
        rw [Option.some.injEq] at h
        rw [Value.integer.injEq]
        omega
      . simp at h
    . rintro ⟨hz, hn⟩
      rw [Value.integer.injEq] at hz
      rw [if_pos (by omega), Option.some.injEq]
      omega
  | string _ | float | boolean _ | dateTime | array _ | table _ _ | tables _ => simp [Value.asNat?]

theorem gives_of_read? {α : Type} {ofNat : Nat → α} {toNat : α → Nat} {standard x : α}
    (hexact : ∀ n < bound, toNat (ofNat n) = n)
    (h : f.read? place name (fun v => (v.asNat? bound).map ofNat) standard = some x)
    : f.Gives place name (toNat standard) (toNat x) := by
  unfold Fields.read? at h
  unfold Fields.Gives
  split at h
  . next hget =>
    rw [Option.some.injEq] at h
    rw [hget, h]
  . next v hget =>
    rw [Option.map_eq_some_iff] at h
    rcases h with ⟨n, hn, rfl⟩
    rw [asNat?_eq_some_iff] at hn
    rw [hget, hexact n hn.2]
    exact hn.1

theorem gives_count {standard x : UInt64} (h : f.read? place name countOfValue? standard = some x)
    : f.Gives place name standard.toNat x.toNat :=
  gives_of_read? (fun _ hn => UInt64.toNat_ofNat_of_lt' hn) h

theorem gives_days {h : HandshakeSettings} (hread : HandshakeSettings.ofFields? f = some h)
    : f.Gives 3 "zertifikat_gueltigkeit_tage" 30 h.validDays.toNat := by
  unfold HandshakeSettings.ofFields? at hread
  simp only [Option.bind_eq_bind, Option.bind_eq_some_iff, Option.pure_def, Option.some.injEq] at hread
  rcases hread with ⟨_, -, _, -, _, -, validDays, hvalidDays, _, -, rfl⟩
  exact gives_count hvalidDays

theorem givesLine_of_ofFields? {h : HandshakeSettings} {line : Handshake.Settings}
    (hread : HandshakeSettings.ofFields? f = some h) (hline : h.toLine? = some line)
    : f.GivesLine line h.validDays.toNat := by
  unfold HandshakeSettings.toLine? at hline
  unfold HandshakeSettings.ofFields? at hread
  simp only [Option.bind_eq_bind, Option.bind_eq_some_iff, Option.pure_def, Option.some.injEq] at hread hline
  rcases hread with ⟨readTimeout, hreadTimeout, mtu, hmtu, maxTimeouts, hmaxTimeouts, validDays, hvalidDays,
    queueCapacity, hqueueCapacity, rfl⟩
  rcases hline with ⟨_, -, rfl⟩
  exact {
    readTimeout := gives_count hreadTimeout
    mtu := gives_count hmtu
    maxTimeouts := gives_of_read? (fun _ hn => UInt32.toNat_ofNat_of_lt' hn) hmaxTimeouts
    days := gives_count hvalidDays
    queueCapacity := gives_count hqueueCapacity }

theorem handshake_of_ofFields? (h : Settings.ofFields? f = some s)
    : ∃ fields, f.handshake? = some fields ∧ HandshakeSettings.ofFields? fields = some s.handshake := by
  unfold Settings.ofFields? at h
  simp only [Option.bind_eq_bind, Option.bind_eq_some_iff, Option.pure_def, Option.some.injEq] at h
  rcases h with ⟨_, -, _, -, _, -, handshake, hread, _, -, rfl⟩
  unfold Fields.read? at hread
  unfold Fields.handshake?
  cases hget : f.get? 3 "dtls" with
  | none =>
    rw [hget, Option.some.injEq] at hread
    rw [← hread]
    exact ⟨.named [], rfl, rfl⟩
  | some v =>
    rw [hget] at hread
    unfold readRecord? at hread
    rw [Option.bind_eq_bind, Option.bind_eq_some_iff] at hread
    exact hread

theorem ofText_eq_ok {text : String} (h : Settings.ofText text = .ok s)
    : ∃ root, Toml.ofText? text = some root ∧ Settings.ofFields? (.named root) = some s := by
  unfold Settings.ofText at h
  split at h
  . simp at h
  . next s' hread =>
    split at h
    . simp at h
    . rw [Except.ok.injEq] at h
      rw [h, Option.bind_eq_some_iff] at hread
      exact hread

theorem ofFile_eq_ok (h : Settings.ofFile content = .ok s)
    : ∃ fields, handshakeFields? content = some fields ∧ HandshakeSettings.ofFields? fields = some s.handshake := by
  cases content with
  | none =>
    cases h
    exact ⟨.named [], rfl, rfl⟩
  | some content =>
    unfold Settings.ofFile at h
    unfold handshakeFields?
    dsimp only at h ⊢
    cases htext : Utf8.decode? content with
    | none =>
      rw [htext] at h
      simp at h
    | some text =>
      rw [htext] at h
      rcases ofText_eq_ok h with ⟨root, hroot, hread⟩
      simp only [Option.bind_eq_bind, Option.bind_some, hroot]
      exact handshake_of_ofFields? hread

end Reading

theorem toNat_mul_of_lt {a b : UInt64} (h : a.toNat * b.toNat < UInt64.size) : (a * b).toNat = a.toNat * b.toNat := by
  rw [UInt64.toNat_mul]
  exact Nat.mod_eq_of_lt h

/-- Two products one after the other fit if the whole product does. -/
theorem multiply?_bind (a : UInt64) {b c : UInt64} (hc : 0 < c.toNat) (h : b.toNat * c.toNat < UInt64.size)
    : (multiply? a b).bind (multiply? · c) = multiply? a (b * c) := by
  have hbc : (b * c).toNat = b.toNat * c.toNat := toNat_mul_of_lt h
  have hle : a.toNat * b.toNat ≤ a.toNat * (b.toNat * c.toNat) := by
    rw [← Nat.mul_assoc]
    exact Nat.le_mul_of_pos_right _ hc
  by_cases hab : a.toNat * b.toNat < UInt64.size
  . have hproduct : (a * b).toNat = a.toNat * b.toNat := toNat_mul_of_lt hab
    unfold multiply?
    rw [if_pos hab, Option.bind_some, hproduct, hbc, Nat.mul_assoc, UInt64.mul_assoc]
  . unfold multiply?
    rw [if_neg hab, Option.bind_none, hbc, if_neg (by omega)]

namespace HandshakeSettings

theorem fits_iff (s : HandshakeSettings) : s.validDays.toNat * 86400 < UInt64.size ↔ s.validDays.toNat ≤ maxDays := by
  have hsize : UInt64.size = 18446744073709551616 := rfl
  unfold maxDays
  omega

theorem validity?_eq (s : HandshakeSettings)
    : s.validity? = if s.validDays.toNat ≤ maxDays then some (s.validDays * 86400) else none := by
  have hseconds : (24 * 60 * 60 : UInt64) = 86400 := by decide
  unfold validity?
  simp only [Option.bind_eq_bind]
  rw [← Option.bind_assoc, multiply?_bind _ (by decide) (by decide), multiply?_bind _ (by decide) (by decide),
    hseconds]
  unfold multiply?
  simp only [← fits_iff]
  rfl

theorem toLine?_eq_none (s : HandshakeSettings) (h : maxDays < s.validDays.toNat) : s.toLine? = none := by
  unfold toLine?
  rw [validity?_eq, if_neg (by omega)]
  rfl

theorem exists_toLine? (s : HandshakeSettings) (h : s.validDays.toNat ≤ maxDays)
    : ∃ line, s.toLine? = some line ∧ line.validity = s.validDays.toNat * 86400 := by
  unfold toLine?
  rw [validity?_eq, if_pos h]
  exact ⟨_, rfl, toNat_mul_of_lt (s.fits_iff.2 h)⟩

end HandshakeSettings

namespace Settings

theorem start_of_toLine?_eq_none (h : s.handshake.toLine? = none) (password : String) (certificate : Bytes)
    : Server.start s password certificate = .error .overflow := by
  unfold Server.start
  rw [h]

/-- What an accepted file says reaches the handshakes as it is, the days of the certificate as that many seconds, if
the days are few enough. Otherwise the product overflows, and there is no server. -/
theorem toLine?_exact (h : ofFile content = .ok s)
    : ∃ fields days, handshakeFields? content = some fields ∧
        fields.Gives 3 "zertifikat_gueltigkeit_tage" 30 days ∧
        (days ≤ HandshakeSettings.maxDays → ∃ line, s.handshake.toLine? = some line ∧
          fields.GivesLine line days ∧ line.validity = days * 86400) ∧
        (HandshakeSettings.maxDays < days → s.handshake.toLine? = none ∧
          ∀ password certificate, Server.start s password certificate = .error .overflow) := by
  rcases ofFile_eq_ok h with ⟨fields, hfields, hread⟩
  refine ⟨fields, s.handshake.validDays.toNat, hfields, gives_days hread, ?_, ?_⟩
  . intro hdays
    rcases s.handshake.exists_toLine? hdays with ⟨line, hline, hvalidity⟩
    exact ⟨line, hline, givesLine_of_ofFields? hread hline, hvalidity⟩
  . intro hdays
    have hnone := s.handshake.toLine?_eq_none hdays
    exact ⟨hnone, start_of_toLine?_eq_none hnone⟩

def sampleFile (days : Nat) : Bytes :=
  Utf8.encode ("[dtls]\nzertifikat_gueltigkeit_tage = " ++ toString days ++ "\n")

def sampleSettings (days : UInt64) : Settings where
  handshake := { validDays := days }

theorem toLine?_exact_sampleFile
    : ofFile (some (sampleFile 90)) = .ok (sampleSettings 90) ∧
      ∃ fields days, handshakeFields? (some (sampleFile 90)) = some fields ∧
        fields.Gives 3 "zertifikat_gueltigkeit_tage" 30 days ∧
        (days ≤ HandshakeSettings.maxDays → ∃ line, (sampleSettings 90).handshake.toLine? = some line ∧
          fields.GivesLine line days ∧ line.validity = days * 86400) ∧
        (HandshakeSettings.maxDays < days → (sampleSettings 90).handshake.toLine? = none ∧
          ∀ password certificate, Server.start (sampleSettings 90) password certificate = .error .overflow) := by
  have hfile : ofFile (some (sampleFile 90)) = .ok (sampleSettings 90) := by decide +kernel
  exact ⟨hfile, toLine?_exact hfile⟩

theorem toLine?_eq_none_sampleFile
    : ofFile (some (sampleFile 213503982334602)) = .ok (sampleSettings 213503982334602) ∧
      (sampleSettings 213503982334602).handshake.toLine? = none ∧
      ∀ password certificate,
        Server.start (sampleSettings 213503982334602) password certificate = .error .overflow := by
  have hnone : (sampleSettings 213503982334602).handshake.toLine? = none := by decide +kernel
  refine ⟨?_, hnone, start_of_toLine?_eq_none hnone⟩
  decide +kernel

end Settings

end Intercom
