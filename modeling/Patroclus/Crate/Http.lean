import Patroclus.Crate.Text

/-!
# Requests

What the middleware and the router read of a request. The path is that of the URI, as it
was sent. Header names are in lower case, as the `http` crate keeps them, and a lookup
returns the first value of a name.
-/

namespace Patroclus

inductive Method where
  | get
  | head
  | post
  | other (name : String)
deriving DecidableEq, Repr

structure Request where
  method : Method
  path : String
  headers : List (String × List UInt8)

def Request.header (req : Request) (name : String) : Option (List UInt8) :=
  (req.headers.find? (·.1 == name)).map (·.2)

def isVisibleAscii (byte : UInt8) : Bool := (32 ≤ byte && byte < 127) || byte == 9

/-- `HeaderValue::to_str`. -/
def headerToStr (value : List UInt8) : Option String :=
  if value.all isVisibleAscii then some (asciiText value) else none

/-- A header that reads as a text consists of its bytes. -/
theorem utf8_of_headerToStr {value : List UInt8} {s : String} (h : headerToStr value = some s) :
    utf8 s = value := by
  rw [headerToStr] at h
  split at h
  · rename_i hvisible
    obtain rfl := Option.some.inj h
    apply utf8_asciiText
    intro byte hbyte
    have hvisible := List.all_eq_true.mp hvisible byte hbyte
    simp only [isVisibleAscii, Bool.or_eq_true, Bool.and_eq_true, decide_eq_true_eq,
      beq_iff_eq] at hvisible
    obtain ⟨-, hlt⟩ | rfl := hvisible
    · have hlt : byte.toNat < 127 := UInt8.lt_iff_toNat_lt.mp hlt
      omega
    · decide
  · cases h

end Patroclus
