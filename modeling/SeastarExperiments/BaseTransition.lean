import Mathlib.Data.List.Basic
import Mathlib.Data.List.Infix
import Mathlib.Tactic.Push

/-! Labelled transition systems with a computable step, their finite runs, and the rules by which a
fact about one step becomes a fact about every run. A run is a list of events, each of them enabled
when it is taken; a claim "in every state of the run" is `Always`, a condition on the steps taken
is `EachStep`. -/

namespace Transition

/-- A transition system: an initial state and a partial step for each event. -/
structure System (State Event : Type*) where
  init : State
  step : State → Event → Option State

namespace System

variable {State Event : Type*} (S : System State Event)

/-- The state a list of events leads to, when each of them is enabled in its turn. -/
def exec : State → List Event → Option State
  | s, [] => some s
  | s, e :: es => (S.step s e).bind fun t => exec t es

/-- A state some run from the initial one leads to. -/
def Reachable (t : State) : Prop := ∃ es, S.exec S.init es = some t

/-- The property holds in every state the run visits, the first and the last one included. -/
def Always (P : State → Prop) (s : State) (es : List Event) : Prop :=
  ∀ pre, pre <+: es → ∀ t, S.exec s pre = some t → P t

/-- Every step of the run, taken in the state before it, meets the condition. -/
def EachStep (C : State → Event → Prop) (s : State) (es : List Event) : Prop :=
  ∀ pre e, pre ++ [e] <+: es → ∀ t, S.exec s pre = some t → C t e

theorem exec_cons (s : State) (e : Event) (es : List Event) :
    S.exec s (e :: es) = (S.step s e).bind fun t => S.exec t es := rfl

theorem exec_append (s : State) (es fs : List Event) :
    S.exec s (es ++ fs) = (S.exec s es).bind fun t => S.exec t fs := by
  induction es generalizing s with
  | nil => rfl
  | cons e es ih =>
      rw [List.cons_append, exec_cons, exec_cons]
      cases S.step s e with
      | none => rfl
      | some t => exact ih t

theorem exec_append_some {s u : State} {es fs : List Event} (h : S.exec s (es ++ fs) = some u) :
    ∃ t, S.exec s es = some t ∧ S.exec t fs = some u := by
  rw [exec_append] at h
  exact Option.bind_eq_some_iff.mp h

theorem exec_trans {s t u : State} {es fs : List Event} (h : S.exec s es = some t)
    (h' : S.exec t fs = some u) : S.exec s (es ++ fs) = some u := by
  rw [exec_append, h]
  exact h'

theorem exec_singleton (s : State) (e : Event) : S.exec s [e] = S.step s e := by
  rw [exec_cons]
  cases S.step s e <;> rfl

theorem exec_concat_some {s u : State} {es : List Event} {e : Event}
    (h : S.exec s (es ++ [e]) = some u) : ∃ t, S.exec s es = some t ∧ S.step t e = some u := by
  obtain ⟨t, ht, hu⟩ := S.exec_append_some h
  exact ⟨t, ht, by rwa [exec_singleton] at hu⟩

theorem exec_cons_some {s u : State} {e : Event} {es : List Event}
    (h : S.exec s (e :: es) = some u) : ∃ t, S.step s e = some t ∧ S.exec t es = some u := by
  rw [exec_cons] at h
  exact Option.bind_eq_some_iff.mp h

/-- The rest of a run, from a state on the way. -/
theorem exec_after {s t u : State} {es fs : List Event} (ht : S.exec s es = some t)
    (h : S.exec s (es ++ fs) = some u) : S.exec t fs = some u := by
  rw [exec_append, ht] at h
  exact h

/-- A step of a run, at the state where it is taken. -/
theorem exec_step {s t u : State} {es fs : List Event} {e : Event} (ht : S.exec s es = some t)
    (h : S.exec s (es ++ [e] ++ fs) = some u) :
    ∃ t', S.step t e = some t' ∧ S.exec s (es ++ [e]) = some t' := by
  obtain ⟨t', ht', -⟩ := S.exec_append_some h
  have hstep := S.exec_after ht ht'
  rw [exec_singleton] at hstep
  exact ⟨t', hstep, ht'⟩

theorem Reachable.init : S.Reachable S.init := ⟨[], rfl⟩

variable {S}

theorem Reachable.step {s t : State} {e : Event} (hs : S.Reachable s) (h : S.step s e = some t) :
    S.Reachable t := by
  obtain ⟨es, hes⟩ := hs
  exact ⟨es ++ [e], S.exec_trans hes (by rwa [exec_singleton])⟩

/-- Induction along a run, taking the last step off. -/
theorem exec_induction {s : State} {motive : List Event → State → Prop}
    (nil : motive [] s)
    (concat : ∀ es t e u, S.exec s es = some t → motive es t → S.step t e = some u →
      motive (es ++ [e]) u)
    {es : List Event} {t : State} (h : S.exec s es = some t) : motive es t := by
  induction es using List.reverseRecOn generalizing t with
  | nil =>
      cases h
      exact nil
  | append_singleton es e ih =>
      obtain ⟨u, hu, hstep⟩ := S.exec_concat_some h
      exact concat es u e t hu (ih hu) hstep

/-- What holds at the start and is preserved by each step holds after every run. -/
theorem exec_invariant (Inv : State → Prop)
    (hstep : ∀ s e t, Inv s → S.step s e = some t → Inv t)
    {s t : State} {es : List Event} (h0 : Inv s) (h : S.exec s es = some t) : Inv t :=
  exec_induction (motive := fun _ t => Inv t) h0 (fun _ t e u _ ht hu => hstep t e u ht hu) h

theorem Reachable.invariant (Inv : State → Prop) (h0 : Inv S.init)
    (hstep : ∀ s e t, Inv s → S.step s e = some t → Inv t) {t : State} (h : S.Reachable t) :
    Inv t := by
  obtain ⟨es, hes⟩ := h
  exact exec_invariant Inv hstep h0 hes

/-- An invariant whose step may use another invariant already shown of every reachable state. -/
theorem Reachable.invariant_of {Known : State → Prop} (Inv : State → Prop)
    (hknown : ∀ s, S.Reachable s → Known s) (h0 : Inv S.init)
    (hstep : ∀ s e t, Known s → Inv s → S.step s e = some t → Inv t) {t : State}
    (h : S.Reachable t) : Inv t := by
  have hboth : S.Reachable t ∧ Inv t := by
    apply Reachable.invariant (fun s => S.Reachable s ∧ Inv s) ⟨.init S, h0⟩ ?_ h
    rintro s e t ⟨hr, hi⟩ hst
    exact ⟨hr.step hst, hstep s e t (hknown s hr) hi hst⟩
  exact hboth.2

/-- Where every reachable state has a step to take, some run is as long as asked for. -/
theorem exists_run_length (hgoes : ∀ s, S.Reachable s → ∃ e t, S.step s e = some t) (n : Nat) :
    ∃ es t, S.exec S.init es = some t ∧ es.length = n := by
  induction n with
  | zero => exact ⟨[], S.init, rfl, rfl⟩
  | succ n ih =>
      obtain ⟨es, s, hs, hlength⟩ := ih
      obtain ⟨e, t, ht⟩ := hgoes s ⟨es, hs⟩
      refine ⟨es ++ [e], t, S.exec_trans hs (by rwa [exec_singleton]), ?_⟩
      rw [List.length_append, hlength]
      rfl

/-- A part of a system is a system of its own: a step of the whole is a step of the part, or leaves
it as it is. -/
structure Projects {Part Label : Type*} (S : System State Event) (T : System Part Label)
    (part : State → Part) (label : Event → Option Label) : Prop where
  init : part S.init = T.init
  step : ∀ s e t, S.step s e = some t → T.exec (part s) (label e).toList = some (part t)

section

variable {Part Label : Type*} {T : System Part Label} {part : State → Part}
  {label : Event → Option Label}

/-- A run of the whole is a run of the part. -/
theorem Projects.exec (hpart : S.Projects T part label) {s t : State} {es : List Event}
    (h : S.exec s es = some t) : T.exec (part s) (es.filterMap label) = some (part t) := by
  apply exec_induction (motive := fun es t => T.exec (part s) (es.filterMap label) = some (part t))
    rfl ?_ h
  intro es t e u _ ih hu
  have hlast : [e].filterMap label = (label e).toList := by
    rw [List.filterMap_cons, List.filterMap_nil]
    cases label e <;> rfl
  rw [List.filterMap_append, hlast]
  exact T.exec_trans ih (hpart.step t e u hu)

theorem Projects.reachable (hpart : S.Projects T part label) {t : State} (h : S.Reachable t) :
    T.Reachable (part t) := by
  obtain ⟨es, hes⟩ := h
  refine ⟨es.filterMap label, ?_⟩
  rw [← hpart.init]
  exact hpart.exec hes

end

theorem EachStep.concat {C : State → Event → Prop} {s : State} {es : List Event} {e : Event}
    (h : S.EachStep C s (es ++ [e])) : S.EachStep C s es :=
  fun pre f hpre => h pre f (hpre.trans (List.prefix_append es [e]))

theorem EachStep.last {C : State → Event → Prop} {s t : State} {es : List Event} {e : Event}
    (h : S.EachStep C s (es ++ [e])) (ht : S.exec s es = some t) : C t e :=
  h es e (List.prefix_refl _) t ht

theorem EachStep.restrict {C : State → Event → Prop} {s : State} {es fs : List Event}
    (h : S.EachStep C s fs) (hpre : es <+: fs) : S.EachStep C s es :=
  fun pre e hp => h pre e (hp.trans hpre)

/-- A run all of whose steps meet the condition keeps what such a step preserves. -/
theorem EachStep.invariant {C : State → Event → Prop} (Inv : State → Prop)
    (hstep : ∀ s e t, Inv s → C s e → S.step s e = some t → Inv t)
    {s t : State} {es : List Event} (h0 : Inv s) (hC : S.EachStep C s es)
    (h : S.exec s es = some t) : Inv t := by
  apply exec_induction (S := S) (s := s) (motive := fun es t => S.EachStep C s es → Inv t)
    (fun _ => h0) ?_ h hC
  intro es t e u ht ih hu hC
  exact hstep t e u (ih hC.concat) (hC.last ht) hu

/-- Forward simulation: where each step under the condition is matched by some steps of another
system, so is the run. -/
theorem EachStep.simulated {State' Event' : Type} {T : System State' Event'}
    {C : State → Event → Prop} (R : State → State' → Prop)
    (hstep : ∀ s e t s', R s s' → C s e → S.step s e = some t →
      ∃ es' t', T.exec s' es' = some t' ∧ R t t')
    {s t : State} {s' : State'} {es : List Event} (h0 : R s s') (hC : S.EachStep C s es)
    (h : S.exec s es = some t) : ∃ es' t', T.exec s' es' = some t' ∧ R t t' := by
  apply exec_induction (S := S) (s := s) (motive := fun es t =>
    S.EachStep C s es → ∃ es' t', T.exec s' es' = some t' ∧ R t t')
    (fun _ => ⟨[], s', rfl, h0⟩) ?_ h hC
  intro es t e u ht ih hu hC
  obtain ⟨before, t', hbefore, hR⟩ := ih hC.concat
  obtain ⟨after, u', hafter, hR'⟩ := hstep t e u t' hR (hC.last ht) hu
  exact ⟨before ++ after, u', T.exec_trans hbefore hafter, hR'⟩

theorem EachStep.always {C : State → Event → Prop} (Inv : State → Prop)
    (hstep : ∀ s e t, Inv s → C s e → S.step s e = some t → Inv t)
    {s : State} {es : List Event} (h0 : Inv s) (hC : S.EachStep C s es) : S.Always Inv s es :=
  fun _ hpre _ ht => EachStep.invariant Inv hstep h0 (hC.restrict hpre) ht

theorem Always.mono {P Q : State → Prop} (hPQ : ∀ s, P s → Q s) {s : State} {es : List Event}
    (h : S.Always P s es) : S.Always Q s es :=
  fun pre hpre t ht => hPQ t (h pre hpre t ht)

/-- When a step that breaks the condition leads out of the property, a run that stays in the
property meets the condition at each step. -/
theorem Always.eachStep {P : State → Prop} {C : State → Event → Prop} {s u : State}
    {es : List Event} (h : S.Always P s es) (hexec : S.exec s es = some u)
    (hbreak : ∀ pre t e t', S.exec s pre = some t → S.step t e = some t' → P t' → C t e) :
    S.EachStep C s es := by
  rintro pre e ⟨rest, rfl⟩ t ht
  obtain ⟨t', hstep, ht'⟩ := S.exec_step ht hexec
  exact hbreak pre t e t' ht hstep (h _ (List.prefix_append _ _) t' ht')

/-! ### Checking a run -/

@[simp]
theorem eachStep_nil {C : State → Event → Prop} {s : State} : S.EachStep C s [] := by
  intro pre e hpre
  simp at hpre

theorem eachStep_cons {C : State → Event → Prop} {s : State} {e : Event} {es : List Event} :
    S.EachStep C s (e :: es) ↔ C s e ∧ ∀ t, S.step s e = some t → S.EachStep C t es := by
  constructor
  · intro h
    refine ⟨h [] e (by simp) s rfl, fun t ht pre f hpre u hu => ?_⟩
    apply h (e :: pre) f (List.cons_prefix_cons.mpr ⟨rfl, hpre⟩) u
    rw [exec_cons, ht]
    exact hu
  · rintro ⟨hs, hrest⟩ pre f hpre t ht
    cases pre with
    | nil =>
        obtain ⟨rfl, -⟩ := List.cons_prefix_cons.mp hpre
        cases ht
        exact hs
    | cons g pre =>
        obtain ⟨rfl, htail⟩ := List.cons_prefix_cons.mp hpre
        obtain ⟨u, hu, ht⟩ := S.exec_cons_some ht
        exact hrest u hu pre f htail t ht

/-- A condition on events alone is a condition on the events of the run. -/
theorem eachStep_iff_forall_mem {C : Event → Prop} {s t : State} {es : List Event}
    (h : S.exec s es = some t) : S.EachStep (fun _ e => C e) s es ↔ ∀ e ∈ es, C e := by
  constructor
  · intro hC e he
    obtain ⟨pre, rest, rfl⟩ := List.append_of_mem he
    obtain ⟨u, hu, -⟩ := S.exec_append_some h
    exact hC pre e ⟨rest, by simp⟩ u hu
  · intro hC pre e hpre _ _
    exact hC e (hpre.subset (by simp))

instance decidableEachStep (C : State → Event → Prop) [∀ s e, Decidable (C s e)] :
    ∀ s es, Decidable (S.EachStep C s es)
  | _, [] => isTrue eachStep_nil
  | s, e :: es =>
      have : Decidable (∀ t, S.step s e = some t → S.EachStep C t es) :=
        match S.step s e with
        | none => isTrue (by simp)
        | some t =>
            have := decidableEachStep C t es
            decidable_of_iff (S.EachStep C t es) (by simp)
      decidable_of_iff _ eachStep_cons.symm

/-! ### Counting steps -/

/-- The number of steps of a run that go from one state to another in a way that is counted. -/
def countSteps (counted : State → State → Bool) : State → List Event → Nat
  | _, [] => 0
  | s, e :: es =>
      match S.step s e with
      | none => 0
      | some t => (if counted s t then 1 else 0) + countSteps counted t es

variable {counted : State → State → Bool}

theorem countSteps_append {s t : State} {es : List Event} (h : S.exec s es = some t)
    (fs : List Event) :
    S.countSteps counted s (es ++ fs) = S.countSteps counted s es + S.countSteps counted t fs := by
  induction es generalizing s with
  | nil =>
      cases h
      exact (Nat.zero_add _).symm
  | cons e es ih =>
      obtain ⟨u, hstep, hrest⟩ := S.exec_cons_some h
      rw [List.cons_append, countSteps, countSteps, hstep]
      simp only
      rw [ih hrest, Nat.add_assoc]

theorem countSteps_concat {s t u : State} {es : List Event} {e : Event}
    (h : S.exec s es = some t) (hstep : S.step t e = some u) :
    S.countSteps counted s (es ++ [e]) =
      S.countSteps counted s es + if counted t u then 1 else 0 := by
  rw [countSteps_append h, countSteps, hstep]
  rfl

/-- While an invariant holds that no counted step leads to, nothing is counted. -/
theorem countSteps_eq_zero (Inv : State → Prop)
    (hstep : ∀ s e t, Inv s → S.step s e = some t → Inv t ∧ counted s t = false)
    {s t : State} {es : List Event} (hs : Inv s) (h : S.exec s es = some t) :
    S.countSteps counted s es = 0 := by
  have hboth : Inv t ∧ S.countSteps counted s es = 0 := by
    apply exec_induction (motive := fun es t => Inv t ∧ S.countSteps counted s es = 0)
      ⟨hs, rfl⟩ ?_ h
    rintro es t e u ht ⟨hinv, hzero⟩ hu
    obtain ⟨hinv', hquiet⟩ := hstep t e u hinv hu
    refine ⟨hinv', ?_⟩
    rw [countSteps_concat ht hu, hzero, hquiet]
    rfl
  exact hboth.2

/-- When every step of one kind decreases a measure, such steps run dry: some run of them leads to a
state in which none is enabled. -/
theorem exists_exhausted (kind : Event → Prop) (Inv : State → Prop) (measure : State → Nat)
    (hstep : ∀ s e t, Inv s → kind e → S.step s e = some t → Inv t ∧ measure t < measure s)
    {s : State} (hs : Inv s) :
    ∃ es t, (∀ e ∈ es, kind e) ∧ S.exec s es = some t ∧ Inv t ∧
      ∀ e, kind e → S.step t e = none := by
  induction hn : measure s using Nat.strong_induction_on generalizing s with
  | _ n ih =>
      by_cases hdry : ∀ e, kind e → S.step s e = none
      · exact ⟨[], s, by simp, rfl, hs, hdry⟩
      · push Not at hdry
        obtain ⟨e, hkind, hsome⟩ := hdry
        obtain ⟨t, ht⟩ := Option.ne_none_iff_exists'.mp hsome
        obtain ⟨hinv, hlt⟩ := hstep s e t hs hkind ht
        obtain ⟨es, u, hall, hexec, hu, hdead⟩ := ih (measure t) (hn ▸ hlt) hinv rfl
        refine ⟨e :: es, u, ?_, ?_, hu, hdead⟩
        · intro f hf
          rcases List.mem_cons.mp hf with rfl | hf
          · exact hkind
          · exact hall f hf
        · rw [exec_cons, ht]
          exact hexec

end System

end Transition
