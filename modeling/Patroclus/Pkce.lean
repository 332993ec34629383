import Patroclus.Foundation.Base64Url
import Patroclus.Idp
import Patroclus.Platform

/-!
# The proof key of a login

The values that a login draws at random, and the challenge that stands for its verifier
in the authorization request.
-/

namespace Patroclus

open Foundation

/-- `URL_SAFE_NO_PAD.encode` -/
def urlSafeNoPad (bytes : List UInt8) : String := String.ofList (Base64Url.encode bytes)

/-- `random_b64url`: the first `n` bytes that the generator fills the buffer with. -/
def randomB64Url (n : Nat) (random : List UInt8) : String := urlSafeNoPad (random.takeD n 0)

def generateCodeVerifier (random : List UInt8) : String := randomB64Url 32 random

def generateState (random : List UInt8) : String := randomB64Url 24 random

def pkceS256Challenge (p : Platform) (codeVerifier : String) : String :=
  urlSafeNoPad (p.sha256 (utf8 codeVerifier))

theorem toList_urlSafeNoPad (bytes : List UInt8) :
    (urlSafeNoPad bytes).toList = Base64Url.encode bytes := String.toList_ofList

theorem urlSafeNoPad_injective : Function.Injective urlSafeNoPad := by
  intro xs ys h
  apply Base64Url.encode_injective
  rw [← toList_urlSafeNoPad, h, toList_urlSafeNoPad]

/-- Different verifiers have different challenges. -/
theorem pkceS256Challenge_injective {p : Platform} (hash : Function.Injective p.sha256) :
    Function.Injective (pkceS256Challenge p) := by
  intro v w h
  exact utf8_injective (hash (urlSafeNoPad_injective h))

end Patroclus
