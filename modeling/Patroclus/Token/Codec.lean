import Mathlib.Data.Countable.Basic
import Mathlib.Data.Rat.Encodable
import Mathlib.Logic.Equiv.List
import Mathlib.Tactic.DeriveCountable
import Patroclus.Platform

/-!
# A codec that signs everything

There are countably many claims, so each has a text of its own. The codec below
signs claims as this text, and never fails.
-/

namespace Patroclus

instance countableChar : Countable Char :=
  Function.Injective.countable (f := Char.toNat) fun _ _ h => Char.toNat_inj.mp h

instance countableString : Countable String :=
  Function.Injective.countable (f := String.toList) fun _ _ h => String.toList_inj.mp h

deriving instance Countable for F64, JsonNumber

/-- A JSON value as a binary tree: the lists of an array and an object are its right spines. -/
inductive JsonTree where
  | null
  | bool (b : Bool)
  | number (n : JsonNumber)
  | string (s : String)
  | array (items : JsonTree)
  | object (fields : JsonTree)
  | nil
  | item (head tail : JsonTree)
  | field (key : String) (head tail : JsonTree)
deriving Countable

namespace Json

mutual

def tree : Json → JsonTree
  | .null => .null
  | .bool b => .bool b
  | .number n => .number n
  | .string s => .string s
  | .array items => .array (itemsTree items)
  | .object fields => .object (fieldsTree fields)

def itemsTree : List Json → JsonTree
  | [] => .nil
  | item :: rest => .item item.tree (itemsTree rest)

def fieldsTree : List (String × Json) → JsonTree
  | [] => .nil
  | (key, value) :: rest => .field key value.tree (fieldsTree rest)

end

mutual

theorem tree_inj : ∀ {a b : Json}, a.tree = b.tree → a = b
  | .null, b, h => by
      cases b <;> simp_all [tree]
  | .bool _, b, h => by
      cases b <;> simp_all [tree]
  | .number _, b, h => by
      cases b <;> simp_all [tree]
  | .string _, b, h => by
      cases b <;> simp_all [tree]
  | .array _, b, h => by
      cases b <;> simp only [tree, reduceCtorEq, JsonTree.array.injEq] at h
      rw [itemsTree_inj h]
  | .object _, b, h => by
      cases b <;> simp only [tree, reduceCtorEq, JsonTree.object.injEq] at h
      rw [fieldsTree_inj h]

theorem itemsTree_inj : ∀ {xs ys : List Json}, itemsTree xs = itemsTree ys → xs = ys
  | [], [], _ => rfl
  | [], _ :: _, h | _ :: _, [], h => by simp [itemsTree] at h
  | x :: xs, y :: ys, h => by
      simp only [itemsTree, JsonTree.item.injEq] at h
      rw [tree_inj h.1, itemsTree_inj h.2]

theorem fieldsTree_inj : ∀ {xs ys : List (String × Json)}, fieldsTree xs = fieldsTree ys → xs = ys
  | [], [], _ => rfl
  | [], _ :: _, h | _ :: _, [], h => by simp [fieldsTree] at h
  | (_, x) :: xs, (_, y) :: ys, h => by
      simp only [fieldsTree, JsonTree.field.injEq] at h
      rw [h.1, tree_inj h.2.1, fieldsTree_inj h.2.2]

end

end Json

instance : Countable Json :=
  Function.Injective.countable (f := Json.tree) fun _ _ h => Json.tree_inj h

deriving instance Countable for DelegationHop, ActClaim, CnfClaim, AgentClaims

namespace Jwt

/-- Signatures of which every text has at most one reading. -/
noncomputable def ofText (text : AgentClaims → String) (injective : Function.Injective text) :
    Jwt :=
  ofPayload (fun claims => .ok (text claims)) (Function.partialInv text) <| by
  intro claims token h
  cases h
  exact (injective.isPartialInv _ _).mpr rfl

/-- The claims by their number. -/
noncomputable def textOf (claims : AgentClaims) : String :=
  String.ofList (List.replicate ((exists_injective_nat AgentClaims).choose claims) '.')

theorem textOf_injective : Function.Injective textOf := by
  intro a b h
  have hlength := congrArg List.length (String.ofList_inj.mp h)
  rw [List.length_replicate, List.length_replicate] at hlength
  exact (exists_injective_nat AgentClaims).choose_spec hlength

noncomputable def signingAll : Jwt := ofText textOf textOf_injective

theorem signingAll_signs (claims : AgentClaims) :
    ∃ token, signingAll.encode claims = .ok token := ⟨textOf claims, rfl⟩

end Jwt

end Patroclus
