import SkadiCore.Common.Bytes

/-!
# Cryptographic primitives

The primitives are taken as functions: key agreement, key derivation,
authenticated encryption and a message authentication code. `Crypto.Lawful` is
what their documentation promises and what proofs may use.
-/

namespace SkadiCore

abbrev Key := List.Vector Byte 32

abbrev Nonce := List.Vector Byte 12

structure Crypto where
  publicKey : Key → Key
  diffieHellman : Key → Key → Key
  /-- Salt, input key material and context. -/
  hkdf : Bytes → Key → Bytes → Key
  /-- Key, nonce, associated data and message. -/
  encrypt : Key → Nonce → Bytes → Bytes → Bytes
  decrypt : Key → Nonce → Bytes → Bytes → Option Bytes
  hmac : Key → Bytes → List.Vector Byte 64

namespace Crypto

/-- The laws of X25519 and of the AEAD that the proofs use. -/
structure Lawful (P : Crypto) : Prop where
  diffieHellman_comm : ∀ a b, P.diffieHellman a (P.publicKey b) = P.diffieHellman b (P.publicKey a)
  decrypt_encrypt : ∀ k n aad msg, P.decrypt k n aad (P.encrypt k n aad msg) = some msg
  length_encrypt : ∀ k n aad msg, (P.encrypt k n aad msg).length = msg.length + 16
  length_decrypt : ∀ k n aad c msg, P.decrypt k n aad c = some msg → c.length = msg.length + 16

def plain (tag : Bytes → List.Vector Byte 16) : Crypto where
  publicKey := id
  diffieHellman a b := List.Vector.map₂ (· + ·) a b
  hkdf salt ikm info := toArray 32 (salt ++ ikm.val ++ info)
  encrypt _ _ aad msg := msg ++ (tag aad).val
  decrypt _ _ aad c :=
    if 16 ≤ c.length ∧ c.drop (c.length - 16) = (tag aad).val then some (c.take (c.length - 16))
    else none
  hmac k msg := toArray 64 (k.val ++ msg)

theorem plain_lawful (tag : Bytes → List.Vector Byte 16) : (plain tag).Lawful where
  diffieHellman_comm a b := by
    apply List.Vector.ext
    intro i
    simp only [plain, id_eq, List.Vector.get_map₂]
    exact UInt8.add_comm _ _
  decrypt_encrypt k n aad msg := by
    simp [plain]
  length_encrypt k n aad msg := by
    simp [plain]
  length_decrypt k n aad c msg h := by
    simp only [plain, Option.ite_none_right_eq_some, Option.some.injEq] at h
    obtain ⟨⟨hlen, -⟩, rfl⟩ := h
    rw [List.length_take]
    omega

/-! ## Primitives that open one ciphertext -/

section Lone

variable (salt : Bytes) (ikm : Key) (nonce : Nonce) (aad : Bytes) (c : List.Vector Byte 32)
  (tag : List.Vector Byte 16)

def loneKey : Key := List.Vector.replicate 32 1

def lonePerm (k : Key) (n : Nonce) (ad : Bytes) : Equiv.Perm Bytes :=
  if k = loneKey ∧ n = nonce ∧ ad = aad then Equiv.swap c.val (List.replicate 16 0 ++ tag.val)
  else 1

/-- Primitives under which the lone ciphertext `c` opens to 16 zeros, with the key derived
    from `salt` and `ikm`, with `nonce` and with `aad`. Other messages are followed by
    the tag. -/
def lone : Crypto where
  publicKey := id
  diffieHellman a b := List.Vector.map₂ (· + ·) a b
  hkdf salt' ikm' _ := if salt' = salt ∧ ikm' = ikm then loneKey else List.Vector.replicate 32 0
  encrypt k n ad msg := lonePerm nonce aad c tag k n ad (msg ++ tag.val)
  decrypt k n ad x :=
    let m := lonePerm nonce aad c tag k n ad x
    if 16 ≤ m.length ∧ m.drop (m.length - 16) = tag.val then some (m.take (m.length - 16))
    else none
  hmac k msg := toArray 64 (k.val ++ msg)

variable {salt ikm nonce aad c tag}

theorem lonePerm_lonePerm (k : Key) (n : Nonce) (ad x : Bytes) :
    lonePerm nonce aad c tag k n ad (lonePerm nonce aad c tag k n ad x) = x := by
  unfold lonePerm
  split_ifs
  · exact Equiv.congr_fun (Equiv.swap_swap _ _) x
  · rfl

theorem length_lonePerm (k : Key) (n : Nonce) (ad x : Bytes) :
    (lonePerm nonce aad c tag k n ad x).length = x.length := by
  unfold lonePerm
  split_ifs
  · rw [Equiv.swap_apply_def]
    split_ifs with h₁ h₂
    · simp [h₁, c.property, tag.property]
    · simp [h₂, c.property, tag.property]
    · rfl
  · rfl

theorem lone_lawful : (lone salt ikm nonce aad c tag).Lawful where
  diffieHellman_comm a b := (plain_lawful fun _ => tag).diffieHellman_comm a b
  decrypt_encrypt k n ad msg := by
    simp [lone, lonePerm_lonePerm]
  length_encrypt k n ad msg := by
    simp [lone, length_lonePerm]
  length_decrypt k n ad x msg h := by
    simp only [lone, Option.ite_none_right_eq_some, Option.some.injEq, length_lonePerm] at h
    obtain ⟨⟨hlen, -⟩, rfl⟩ := h
    rw [List.length_take, length_lonePerm]
    omega

theorem lone_decrypt_self :
    (lone salt ikm nonce aad c tag).decrypt loneKey nonce aad c.val =
      some (List.replicate 16 0) := by
  have hperm : lonePerm nonce aad c tag loneKey nonce aad c.val =
      List.replicate 16 0 ++ tag.val := by
    rw [lonePerm, if_pos ⟨rfl, rfl, rfl⟩, Equiv.swap_apply_left]
  simp only [lone, hperm]
  simp [tag.property]

theorem lone_decrypt_eq_some {k : Key} {n : Nonce} {ad msg : Bytes} {x : List.Vector Byte 32}
    (hx : x.val.drop 16 ≠ tag.val)
    (h : (lone salt ikm nonce aad c tag).decrypt k n ad x.val = some msg) :
    k = loneKey ∧ n = nonce ∧ ad = aad ∧ x = c := by
  have hlen : x.val.length - 16 = 16 := by rw [x.property]
  simp only [lone, length_lonePerm, hlen, Option.ite_none_right_eq_some] at h
  obtain ⟨⟨-, htag⟩, -⟩ := h
  unfold lonePerm at htag
  split_ifs at htag with hk
  · refine ⟨hk.1, hk.2.1, hk.2.2, Subtype.ext ?_⟩
    by_contra hne
    -- what is swapped is the lone ciphertext and a text with the tag
    have hne' : x.val ≠ List.replicate 16 0 ++ tag.val := by
      intro heq
      exact hx (by rw [heq]; rfl)
    rw [Equiv.swap_apply_of_ne_of_ne hne hne'] at htag
    exact hx htag
  · exact absurd htag hx

theorem lone_hkdf_eq_loneKey {salt' info : Bytes} {ikm' : Key}
    (h : (lone salt ikm nonce aad c tag).hkdf salt' ikm' info = loneKey) :
    salt' = salt ∧ ikm' = ikm := by
  by_contra hne
  simp only [lone, if_neg hne] at h
  revert h
  decide

end Lone

end Crypto

end SkadiCore
