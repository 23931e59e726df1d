import Mathlib.Logic.Basic

/-!
# Machines driven by events

A machine is a partial step function: `none` where the event cannot happen. `steps` takes the events
of a run one after the other.
-/

namespace Lib

variable {σ τ ε : Type}

/-- Let events happen in order. -/
def steps (step : ε → σ → Option σ) : List ε → σ → Option σ
  | [], s => some s
  | e :: es, s => (step e s).bind (steps step es)

variable {step : ε → σ → Option σ}

theorem steps_cons_eq_some {e : ε} {es : List ε} {s t : σ} :
    steps step (e :: es) s = some t ↔ ∃ u, step e s = some u ∧ steps step es u = some t := by
  rw [steps, Option.bind_eq_some_iff]

/-- A run with one more event. -/
theorem steps_concat {e : ε} {t u : σ} : ∀ {es : List ε} {s : σ}, steps step es s = some t → step e t = some u →
    steps step (es ++ [e]) s = some u
  | [], s, h, hstep => by
      cases h
      rw [List.nil_append, steps, hstep]
      rfl
  | e' :: es, s, h, hstep => by
      obtain ⟨t', ht', htail⟩ := steps_cons_eq_some.mp h
      exact steps_cons_eq_some.mpr ⟨t', ht', steps_concat htail hstep⟩

/-- What every step preserves, every run preserves. -/
theorem steps_inv {I : σ → Prop} (hstep : ∀ {e s t}, step e s = some t → I s → I t) :
    ∀ {es : List ε} {s t : σ}, steps step es s = some t → I s → I t
  | [], s, t, h, hs => by
      cases h
      exact hs
  | e :: es, s, t, h, hs => by
      obtain ⟨u, hu, hut⟩ := steps_cons_eq_some.mp h
      exact steps_inv hstep hut (hstep hu hs)

/-- Every event happens in a state that `C` allows it in. -/
def Along (step : ε → σ → Option σ) (C : ε → σ → Prop) : List ε → σ → Prop
  | [], _ => True
  | e :: es, s => C e s ∧ ∀ t, step e s = some t → Along step C es t

/-- A condition that can be decided, checked along a run. -/
def checkAlong (step : ε → σ → Option σ) (C : ε → σ → Prop) [∀ e s, Decidable (C e s)] : List ε → σ → Bool
  | [], _ => true
  | e :: es, s => decide (C e s) && ((step e s).map (checkAlong step C es)).getD true

theorem checkAlong_iff {C : ε → σ → Prop} [∀ e s, Decidable (C e s)] : ∀ {es : List ε} {s : σ},
    checkAlong step C es s = true ↔ Along step C es s
  | [], _ => iff_of_true rfl trivial
  | e :: es, s => by
      rw [checkAlong, Along, Bool.and_eq_true, decide_eq_true_iff]
      refine and_congr_right fun _ => ?_
      cases step e s with
      | none => simp
      | some t => simpa using checkAlong_iff

instance {C : ε → σ → Prop} [∀ e s, Decidable (C e s)] (es : List ε) (s : σ) : Decidable (Along step C es s) :=
  decidable_of_iff _ checkAlong_iff

/-- Where an invariant holds and a step keeps `P` exactly when `C` allows it, a run keeps `P` exactly when
    `C` allows every step. -/
theorem steps_iff_along {I P : σ → Prop} {C : ε → σ → Prop}
    (hinv : ∀ {e s t}, step e s = some t → I s → I t)
    (hstep : ∀ {e s t}, step e s = some t → I s → (P t ↔ P s ∧ C e s)) :
    ∀ {es : List ε} {s t : σ}, steps step es s = some t → I s → (P t ↔ P s ∧ Along step C es s)
  | [], s, t, h, _ => by
      cases h
      simp [Along]
  | e :: es, s, t, h, hs => by
      obtain ⟨u, hu, hut⟩ := steps_cons_eq_some.mp h
      rw [steps_iff_along hinv hstep hut (hinv hu hs), hstep hu hs, Along, hu, and_assoc]
      simp

/-- Two machines that take the same steps where `C` allows them. -/
theorem along_congr {step' : ε → σ → Option σ} {C : ε → σ → Prop} (h : ∀ {e s}, C e s → step e s = step' e s) :
    ∀ {es : List ε} {s : σ}, Along step C es s ↔ Along step' C es s
  | [], _ => Iff.rfl
  | e :: es, s => by
      rw [Along, Along]
      refine and_congr_right fun hC => ?_
      rw [h hC]
      exact forall_congr' fun t => imp_congr_right fun _ => along_congr h

/-- The last event of such a run is allowed where it happens. -/
theorem Along.last {C : ε → σ → Prop} {e : ε} {t : σ} : ∀ {es : List ε} {s : σ},
    Along step C (es ++ [e]) s → steps step es s = some t → C e t
  | [], s, hC, h => by
      cases h
      exact hC.1
  | e' :: es, s, hC, h => by
      obtain ⟨u, hu, hut⟩ := steps_cons_eq_some.mp h
      exact (hC.2 u hu).last hut

/-- A run whose steps all meet `C` keeps an invariant that every such step preserves. -/
theorem steps_along {I : σ → Prop} {C : ε → σ → Prop} (hstep : ∀ {e s t}, C e s → step e s = some t → I s → I t) :
    ∀ {es : List ε} {s t : σ}, Along step C es s → steps step es s = some t → I s → I t
  | [], s, t, _, h, hs => by
      cases h
      exact hs
  | e :: es, s, t, hC, h, hs => by
      obtain ⟨u, hu, hut⟩ := steps_cons_eq_some.mp h
      exact steps_along hstep (hC.2 u hu) hut (hstep hC.1 hu hs)

/-- Where such steps can be taken as well, the run ends. -/
theorem steps_along_total {I : σ → Prop} {C : ε → σ → Prop}
    (hstep : ∀ {e s}, C e s → I s → ∃ t, step e s = some t ∧ I t) : ∀ {es : List ε} {s : σ},
    Along step C es s → I s → ∃ t, steps step es s = some t ∧ I t
  | [], s, _, hs => ⟨s, rfl, hs⟩
  | e :: es, s, hC, hs => by
      obtain ⟨u, hu, hi⟩ := hstep hC.1 hs
      obtain ⟨t, ht, hit⟩ := steps_along_total hstep (hC.2 u hu) hi
      exact ⟨t, steps_cons_eq_some.mpr ⟨u, hu, ht⟩, hit⟩

/-- Along such a run every step has what the invariant and `C` give it. -/
theorem along_of_along {I : σ → Prop} {C P : ε → σ → Prop}
    (hstep : ∀ {e s t}, C e s → step e s = some t → I s → I t) (hP : ∀ {e s}, C e s → I s → P e s) :
    ∀ {es : List ε} {s : σ}, Along step C es s → I s → Along step P es s
  | [], _, _, _ => trivial
  | _ :: _, _, hC, hs =>
    ⟨hP hC.1 hs, fun t ht => along_of_along hstep hP (hC.2 t ht) (hstep hC.1 ht hs)⟩

end Lib
