import Patroclus.Foundation.BigEndian
import Patroclus.Crate.Json
import Patroclus.Pkce

/-!
# The published signing key

The public half of the signing key as a JSON Web Key Set, and what a server that is shown
tokens reads of it.
-/

namespace Patroclus

open Foundation

/-- The public half of the signing key, by the id that the headers of tokens name. -/
structure SigningKey where
  keyId : String
  n : Nat
  e : Nat
deriving DecidableEq, Repr

namespace SigningKey

def publicJwk (key : SigningKey) : Json :=
  .object [
    ("alg", .string "RS256"),
    ("e", .string (urlSafeNoPad (BigEndian.bytes key.e))),
    ("kid", .string key.keyId),
    ("kty", .string "RSA"),
    ("n", .string (urlSafeNoPad (BigEndian.bytes key.n))),
    ("use", .string "sig")]

def publicJwks (key : SigningKey) : Json := .object [("keys", .array [key.publicJwk])]

end SigningKey

/-! ## Reading a key set -/

/-- The number in a member of a key. -/
def keyComponent (name : String) (key : Json) : Option Nat := do
  let text ← (key.field name).bind Json.asStr
  let bytes ← Base64Url.decode text.toList
  return BigEndian.value bytes

/-- The modulus and the exponent of an RSA key. -/
def rsaKey (key : Json) : Option (Nat × Nat) :=
  if key.field "kty" = some (.string "RSA") then do
    return (← keyComponent "n" key, ← keyComponent "e" key)
  else none

/-- The key of a set that has an id. -/
def findKey (keyId : String) (document : Json) : Option (Nat × Nat) := do
  let keys ← (document.field "keys").bind Json.asArray
  let key ← keys.find? fun key => key.field "kid" == some (.string keyId)
  rsaKey key

theorem keyComponent_of_field {name : String} {key : Json} {n : Nat}
    (h : key.field name = some (.string (urlSafeNoPad (BigEndian.bytes n)))) :
    keyComponent name key = some n := by
  rw [keyComponent, h, Option.bind_some, Json.asStr, urlSafeNoPad]
  simp only [Option.bind_eq_bind, Option.bind_some, String.toList_ofList,
    Base64Url.decode_encode, BigEndian.value_bytes]
  rfl

namespace SigningKey

theorem rsaKey_publicJwk (key : SigningKey) : rsaKey key.publicJwk = some (key.n, key.e) := by
  have htype : key.publicJwk.field "kty" = some (.string "RSA") := rfl
  rw [rsaKey, if_pos htype, keyComponent_of_field (n := key.n) rfl,
    keyComponent_of_field (n := key.e) rfl]
  rfl

/-- From what is published, the key is read under its own id, and none under any other. -/
theorem findKey_publicJwks (key : SigningKey) (keyId : String) :
    findKey keyId key.publicJwks = if keyId = key.keyId then some (key.n, key.e) else none := by
  have hfind : findKey keyId key.publicJwks =
      ([key.publicJwk].find? fun jwk => jwk.field "kid" == some (.string keyId)).bind rsaKey := rfl
  have hid : key.publicJwk.field "kid" = some (.string key.keyId) := rfl
  rw [hfind]
  split
  · rename_i heq
    rw [List.find?_cons_of_pos, Option.bind_some, rsaKey_publicJwk]
    rw [hid, heq, beq_self_eq_true]
  · rename_i hne
    rw [List.find?_cons_of_neg]
    · rfl
    · rw [hid, beq_iff_eq]
      intro h
      exact hne (Json.string.inj (Option.some.inj h)).symm

end SigningKey

end Patroclus
