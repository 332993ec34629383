import Mathlib.Init

/-!
# Unwinding

A run is replayed without some of its inputs. The replay answers the kept inputs
as the run does when states of the two are related throughout: a kept input keeps
them related and is answered alike, and an input that is dropped from the replay
does not lead the run away. The relation may depend on the inputs still to come,
since only they can tell two states apart.
-/

namespace Foundation

variable {σ ι ρ : Type*} (step : σ → ι → σ) (reply : σ → ι → ρ)

/-- The inputs of a run with their answers. -/
def transcript : σ → List ι → List (ι × ρ)
  | _, [] => []
  | s, input :: rest => (input, reply s input) :: transcript (step s input) rest

theorem transcript_concat (s : σ) (done : List ι) (input : ι) :
    transcript step reply s (done ++ [input]) =
      transcript step reply s done ++ [(input, reply (done.foldl step s) input)] := by
  induction done generalizing s with
  | nil => rfl
  | cons first done ih => rw [List.cons_append, transcript, ih, transcript, List.foldl_cons,
      List.cons_append]

/-- Each dropped input meets `ok` in the state in which it arrives, in view of the
inputs that follow it. -/
def DroppedMeet (kept : ι → Bool) (ok : σ → ι → List ι → Prop) : σ → List ι → Prop
  | _, [] => True
  | s, input :: rest =>
      (kept input = false → ok s input rest) ∧ DroppedMeet kept ok (step s input) rest

variable {step reply} {kept : ι → Bool} {ok : σ → ι → List ι → Prop}
  {inputs : List ι} {s s' : σ}

theorem DroppedMeet.of_forall (h : ∀ done input rest, inputs = done ++ input :: rest →
    kept input = false → ∀ s, ok s input rest) : DroppedMeet step kept ok s inputs := by
  induction inputs generalizing s with
  | nil => trivial
  | cons input inputs ih =>
      refine ⟨fun hdropped => h [] input inputs rfl hdropped s, ih fun done next rest hsplit => ?_⟩
      exact h (input :: done) next rest (by rw [hsplit, List.cons_append])

theorem DroppedMeet.and {ok' : σ → ι → List ι → Prop} (h : DroppedMeet step kept ok s inputs)
    (h' : DroppedMeet step kept ok' s inputs) :
    DroppedMeet step kept (fun s input rest => ok s input rest ∧ ok' s input rest) s inputs := by
  induction inputs generalizing s with
  | nil => trivial
  | cons input inputs ih =>
      exact ⟨fun hdropped => ⟨h.1 hdropped, h'.1 hdropped⟩, ih h.2 h'.2⟩

theorem DroppedMeet.mono {ok' : σ → ι → List ι → Prop} (h : DroppedMeet step kept ok s inputs)
    (weaker : ∀ s input rest, ok s input rest → ok' s input rest) :
    DroppedMeet step kept ok' s inputs := by
  induction inputs generalizing s with
  | nil => trivial
  | cons input inputs ih =>
      exact ⟨fun hdropped => weaker _ _ _ (h.1 hdropped), ih h.2⟩

/-- The replay answers as the run does. -/
theorem transcript_filter (related : List ι → σ → σ → Prop)
    (answers : ∀ input rest s s', kept input = true → related (input :: rest) s s' →
      reply s input = reply s' input ∧ related rest (step s input) (step s' input))
    (ignores : ∀ input rest s s', kept input = false → ok s input rest →
      related (input :: rest) s s' → related rest (step s input) s')
    (dropped : DroppedMeet step kept ok s inputs) (start : related inputs s s') :
    (transcript step reply s inputs).filter (fun answered => kept answered.1) =
      transcript step reply s' (inputs.filter kept) := by
  induction inputs generalizing s s' with
  | nil => rfl
  | cons input inputs ih =>
      obtain ⟨hok, hrest⟩ := dropped
      cases hkept : kept input with
      | true =>
          obtain ⟨hreply, hnext⟩ := answers input inputs s s' hkept start
          simp only [transcript, List.filter_cons, hkept, if_true, hreply, ih hrest hnext]
      | false =>
          have hnext := ignores input inputs s s' hkept (hok hkept) start
          have htail := ih hrest hnext
          simp only [transcript, List.filter_cons, hkept, Bool.false_eq_true, if_false, htail]

end Foundation
