import Mathlib.Data.Nat.Notation
import Mathlib.Tactic.Basic

/-!
# Authenticated encryption, as an ideal

Under a key a message is sealed with a nonce and with data that is authenticated next to it. The
ideal speaks about the messages that were sealed under a key: each of them is opened again,
nothing else is, and no ciphertext is another one or the end of another one.
-/

namespace AlphaPing.Library.SealedMessages

abbrev Bytes := List UInt8

structure Aead where
  encrypt (key nonce aad plaintext : Bytes) : Bytes
  decrypt (key nonce aad ciphertext : Bytes) : Option Bytes
  /-- The tag has 16 bytes. -/
  length_encrypt : ∀ key nonce aad plaintext,
    (encrypt key nonce aad plaintext).length = plaintext.length + 16

/-- A message that was sealed. -/
structure Sealing where
  nonce : Bytes
  aad : Bytes
  plaintext : Bytes

def Aead.ciphertext (aead : Aead) (key : Bytes) (sealing : Sealing) : Bytes :=
  aead.encrypt key sealing.nonce sealing.aad sealing.plaintext

structure Ideal (aead : Aead) (key : Bytes) (sealings : List Sealing) : Prop where
  opens : ∀ sealing ∈ sealings,
    aead.decrypt key sealing.nonce sealing.aad (aead.ciphertext key sealing) =
      some sealing.plaintext
  authentic : ∀ {nonce aad ciphertext plaintext : Bytes},
    aead.decrypt key nonce aad ciphertext = some plaintext →
      ⟨nonce, aad, plaintext⟩ ∈ sealings ∧
        ciphertext = aead.ciphertext key ⟨nonce, aad, plaintext⟩
  unrelated : ∀ first ∈ sealings, ∀ second ∈ sealings,
    aead.ciphertext key first <:+ aead.ciphertext key second → first = second

/-- The plaintext with an empty tag, and the messages that were sealed to open it. -/
def recorded (sealings : List Sealing) : Aead where
  encrypt _ _ _ plaintext := plaintext ++ List.replicate 16 0
  decrypt _ nonce aad ciphertext :=
    (sealings.find? fun sealing ↦ sealing.nonce = nonce ∧ sealing.aad = aad ∧
      sealing.plaintext ++ List.replicate 16 0 = ciphertext).map Sealing.plaintext
  length_encrypt _ _ _ plaintext := by rw [List.length_append, List.length_replicate]

theorem ideal_recorded (key : Bytes) (sealing : Sealing) :
    Ideal (recorded [sealing]) key [sealing] where
  opens := by
    intro other hother
    obtain rfl := List.mem_singleton.mp hother
    simp [recorded, Aead.ciphertext]
  authentic := by
    intro nonce aad ciphertext plaintext h
    obtain ⟨found, hfound, rfl⟩ := Option.map_eq_some_iff.mp h
    have hmem := List.mem_singleton.mp (List.mem_of_find?_eq_some hfound)
    have hmatch := List.find?_some hfound
    obtain ⟨rfl, rfl, rfl⟩ := of_decide_eq_true hmatch
    subst hmem
    exact ⟨List.mem_singleton_self _, rfl⟩
  unrelated := by
    intro first hfirst second hsecond _
    rw [List.mem_singleton.mp hfirst, List.mem_singleton.mp hsecond]

end AlphaPing.Library.SealedMessages
