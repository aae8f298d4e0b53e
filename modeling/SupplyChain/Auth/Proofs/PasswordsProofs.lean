import SupplyChain.Auth.Passwords
import SupplyChain.Orders.PgOrderStore

/-!
# Proofs: a hash is verified with the password that it was made of
-/

namespace SupplyChain

theorem colon_notMem_encode (bytes : List UInt8) : ':' ∉ Hex.encode bytes := fun h =>
  absurd (Hex.mem_digits_of_mem_encode h) (by decide)

theorem hexEncode_ne_nil {bytes : List UInt8} (h : 0 < bytes.length) : Hex.encode bytes ≠ [] := by
  rw [← List.length_pos_iff, Hex.length_encode]
  omega

theorem storable_ofList {text : List Char} : storable (String.ofList text) = true ↔ '\x00' ∉ text := by
  simp [storable]

namespace Scrypt

variable (scrypt : Scrypt) (salt : Salt) (password password' : List Char)

theorem splitOn_hashPassword : (scrypt.hashPassword salt password).splitOn ':' =
    ["scrypt".toList, salt.text, Hex.encode (scrypt.scryptSync password salt.text)] := by
  have hscheme : ':' ∉ "scrypt".toList := by decide
  have hsalt : ':' ∉ salt.text := colon_notMem_encode salt.bytes
  rw [hashPassword, List.append_assoc, List.cons_append, List.splitOn_append_cons_self_of_not_mem hscheme,
    List.splitOn_append_cons_self_of_not_mem hsalt, List.splitOn_eq_singleton (colon_notMem_encode _)]

/-- A password is accepted exactly if its key is that of the password that was hashed. -/
theorem verifyPassword_hashPassword : scrypt.verifyPassword password' (scrypt.hashPassword salt password) = true ↔
    scrypt.scryptSync password' salt.text = scrypt.scryptSync password salt.text := by
  have hsalt : salt.text ≠ [] := hexEncode_ne_nil (by rw [salt.length_bytes]; decide)
  have hkey : Hex.encode (scrypt.scryptSync password salt.text) ≠ [] :=
    hexEncode_ne_nil (by rw [scrypt.length_scryptSync]; decide)
  have hlength : (scrypt.scryptSync password' salt.text).length =
      (scrypt.scryptSync password salt.text).length := by
    rw [scrypt.length_scryptSync, scrypt.length_scryptSync]
  unfold verifyPassword
  rw [splitOn_hashPassword]
  dsimp only
  rw [if_neg (by simp [hsalt, hkey]), Hex.decode_encode, if_neg (not_not.mpr hlength), timingSafeEqual, beq_iff_eq]

theorem storable_hashPassword : storable (String.ofList (scrypt.hashPassword salt password)) = true := by
  have hencode : ∀ bytes, '\x00' ∉ Hex.encode bytes := fun bytes h =>
    absurd (Hex.mem_digits_of_mem_encode h) (by decide)
  rw [storable_ofList, hashPassword]
  intro hmem
  rcases List.mem_append.mp hmem with hfirst | hkey
  · rcases List.mem_append.mp hfirst with hscheme | hsalt
    · exact absurd hscheme (by decide)
    · rcases List.mem_cons.mp hsalt with hcolon | hsalt
      · exact absurd hcolon (by decide)
      · exact hencode _ hsalt
  · rcases List.mem_cons.mp hkey with hcolon | hkey
    · exact absurd hcolon (by decide)
    · exact hencode _ hkey

end Scrypt

end SupplyChain
