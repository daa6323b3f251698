import Mathlib.Data.List.Basic

namespace Foundation.Transition

open List Option

variable {S A : Type}

def run (step : S → A → Option S) : S → List A → Option S
  | s, [] => some s
  | s, a :: as => (step s a).bind fun t => run step t as

variable {s t u : S} {a : A} {as : List A} {ok : S → A → Prop} {I P : S → Prop} {O : Type} {step : S → A → Option S}
  {out : S → A → List O} {Old : S → O → Prop}

theorem run_cons (hstep : step s a = some t) (hrest : run step t as = some u) : run step s (a :: as) = some u := by
  rw [run, hstep]
  exact hrest

theorem run_append {bs : List A} (has : run step s as = some t) (hbs : run step t bs = some u) :
    run step s (as ++ bs) = some u := by
  induction as generalizing s with
  | nil =>
    cases has
    exact hbs
  | cons a as ih =>
    obtain ⟨v, hv, hr⟩ := bind_eq_some_iff.mp has
    exact run_cons hv (ih hr)

inductive Steps (step : S → A → Option S) (ok : S → A → Prop) : S → List A → S → Prop
  | nil (s : S) : Steps step ok s [] s
  | cons {s t u : S} {a : A} {as : List A} :
      ok s a → step s a = some t → Steps step ok t as u → Steps step ok s (a :: as) u

theorem steps_cons_iff (h : step s a = some t) : Steps step ok s (a :: as) u ↔ ok s a ∧ Steps step ok t as u := by
  constructor
  · intro hsteps
    cases hsteps with
    | cons hok hst hrest =>
      cases h.symm.trans hst
      exact ⟨hok, hrest⟩
  · rintro ⟨hok, hrest⟩
    exact .cons hok h hrest

theorem Steps.preserves (hstep : ∀ s a t, ok s a → step s a = some t → I s → I t) (h : Steps step ok s as t) (hs : I s) :
    I t := by
  induction h with
  | nil s => exact hs
  | cons hok hst _ ih => exact ih (hstep _ _ _ hok hst hs)

theorem steps_of_run_of_forall {ok : A → Prop} (h : run step s as = some t) (hok : ∀ a ∈ as, ok a) :
    Steps step (fun _ a => ok a) s as t := by
  induction as generalizing s with
  | nil =>
    cases h
    exact .nil _
  | cons a as ih =>
    obtain ⟨u, hu, hr⟩ := bind_eq_some_iff.mp h
    exact .cons (hok a mem_cons_self) hu (ih hr fun b hb => hok b (mem_cons_of_mem a hb))

theorem steps_of_run (h : run step s as = some t) : Steps step (fun _ _ => True) s as t :=
  steps_of_run_of_forall h fun _ _ => trivial

theorem Steps.run_eq (h : Steps step ok s as t) : run step s as = some t := by
  induction h with
  | nil s => rfl
  | cons _ hst _ ih => exact run_cons hst ih

theorem exists_run_of_any [DecidablePred P] (h : ((run step s as).any fun t => decide (P t)) = true) :
    ∃ t, run step s as = some t ∧ P t := by
  obtain ⟨t, ht, hP⟩ := (any_eq_true _ _).mp h
  exact ⟨t, ht, of_decide_eq_true hP⟩

theorem exists_run_of_any_imp {Q : S → Prop} [DecidablePred P] (h : ((run step s as).any fun t => decide (P t)) = true)
    (hPQ : ∀ t, P t → Q t) : ∃ t, run step s as = some t ∧ Q t := by
  obtain ⟨t, ht, hP⟩ := exists_run_of_any h
  exact ⟨t, ht, hPQ t hP⟩

def checked (step : S → A → Option S) (ok : S → A → Prop) [∀ s a, Decidable (ok s a)] (s : S) (a : A) : Option S :=
  if ok s a then step s a else none

theorem steps_of_checked [∀ s a, Decidable (ok s a)] (h : run (checked step ok) s as = some t) :
    Steps step ok s as t := by
  induction as generalizing s with
  | nil =>
    cases h
    exact .nil _
  | cons a as ih =>
    obtain ⟨u, hu, hr⟩ := bind_eq_some_iff.mp h
    obtain ⟨hok, hst⟩ := ite_none_right_eq_some.mp hu
    exact .cons hok hst (ih hr)

theorem iff_steps_of_run_of_inv (hinv : ∀ s a t, step s a = some t → I s → I t)
    (hstep : ∀ s a t, I s → step s a = some t → (P t ↔ P s ∧ ok s a)) (h : run step s as = some t) (hI : I s) (hs : P s) :
    P t ↔ Steps step ok s as t := by
  constructor
  · intro ht
    have hback : ∀ {as : List A} {s : S}, I s → run step s as = some t → P s ∧ Steps step ok s as t := by
      intro as
      induction as with
      | nil =>
        intro s _ h
        cases h
        exact ⟨ht, .nil _⟩
      | cons a as ih =>
        intro s hI h
        obtain ⟨u, hu, hr⟩ := bind_eq_some_iff.mp h
        obtain ⟨hPu, hsteps⟩ := ih (hinv s a u hu hI) hr
        obtain ⟨hPs, hok⟩ := (hstep s a u hI hu).mp hPu
        exact ⟨hPs, .cons hok hu hsteps⟩
    exact (hback hI h).2
  · intro hsteps
    have hkeep : ∀ s a t, ok s a → step s a = some t → I s ∧ P s → I t ∧ P t := by
      rintro s a t hok hst ⟨hIs, hPs⟩
      exact ⟨hinv s a t hst hIs, (hstep s a t hIs hst).mpr ⟨hPs, hok⟩⟩
    exact (hsteps.preserves hkeep ⟨hI, hs⟩).2

theorem iff_steps_of_run (hstep : ∀ s a t, step s a = some t → (P t ↔ P s ∧ ok s a)) (h : run step s as = some t)
    (hs : P s) : P t ↔ Steps step ok s as t :=
  iff_steps_of_run_of_inv (I := fun _ => True) (fun _ _ _ _ => id) (fun s a t _ => hstep s a t) h trivial hs

theorem run_preserves {step : S → A → Option S} {I : S → Prop} (hstep : ∀ s a t, step s a = some t → I s → I t)
    {s t : S} {as : List A} (h : run step s as = some t) (hs : I s) : I t :=
  (steps_of_run h).preserves (fun s a t _ => hstep s a t) hs

def Throughout (step : S → A → Option S) (P : S → Prop) : S → List A → Prop
  | s, [] => P s
  | s, a :: as => P s ∧ ∀ t, step s a = some t → Throughout step P t as

theorem throughout_of_preserves (hstep : ∀ s a t, step s a = some t → I s → I t) (hP : ∀ s, I s → P s) (hs : I s)
    (as : List A) : Throughout step P s as := by
  induction as generalizing s with
  | nil => exact hP s hs
  | cons a as ih => exact ⟨hP s hs, fun t ht => ih (hstep s a t ht hs)⟩

/-- `P` holds at every moment of a run exactly when every step meets the condition under which it keeps `P`. Here `J`
is what the steps that meet it carry along. -/
theorem throughout_iff_steps_of_kept {J : S → Prop} (hkeep : ∀ s a t, J s → ok s a → step s a = some t → J t)
    (hstep : ∀ s a t, J s → step s a = some t → (P t ↔ ok s a)) (h : run step s as = some t) (hJ : J s) (hs : P s) :
    Throughout step P s as ↔ Steps step ok s as t := by
  induction as generalizing s with
  | nil =>
    cases h
    exact iff_of_true hs (.nil _)
  | cons a as ih =>
    obtain ⟨u, hu, hr⟩ := bind_eq_some_iff.mp h
    have hrest : ok s a → (Throughout step P u as ↔ Steps step ok u as t) := fun hok =>
      ih hr (hkeep s a u hJ hok hu) ((hstep s a u hJ hu).mpr hok)
    rw [steps_cons_iff hu]
    constructor
    · rintro ⟨-, hfrom⟩
      have hPu : P u := by
        have hu' := hfrom u hu
        cases as with
        | nil => exact hu'
        | cons b bs => exact hu'.1
      have hok := (hstep s a u hJ hu).mp hPu
      exact ⟨hok, (hrest hok).mp (hfrom u hu)⟩
    · rintro ⟨hok, hlater⟩
      refine ⟨hs, fun v hv => ?_⟩
      cases hu.symm.trans hv
      exact (hrest hok).mpr hlater

theorem throughout_iff_steps (hinv : ∀ s a t, step s a = some t → I s → I t)
    (hstep : ∀ s a t, I s → P s → step s a = some t → (P t ↔ ok s a)) (h : run step s as = some t) (hI : I s) (hs : P s) :
    Throughout step P s as ↔ Steps step ok s as t := by
  have hkeep : ∀ s a t, I s ∧ P s → ok s a → step s a = some t → I t ∧ P t := by
    rintro s a t ⟨hIs, hPs⟩ hok hst
    exact ⟨hinv s a t hst hIs, (hstep s a t hIs hPs hst).mpr hok⟩
  exact throughout_iff_steps_of_kept hkeep (fun s a t hJ => hstep s a t hJ.1 hJ.2) h ⟨hI, hs⟩ hs

def outputs {O : Type} (step : S → A → Option S) (out : S → A → List O) : S → List A → List O
  | _, [] => []
  | s, a :: as => out s a ++ (step s a).elim [] fun t => outputs step out t as

theorem outputs_cons (h : step s a = some t) : outputs step out s (a :: as) = out s a ++ outputs step out t as := by
  rw [outputs, h]
  rfl

theorem Steps.nodup_outputs (hinv : ∀ s a t, ok s a → step s a = some t → I s → I t)
    (hkeep : ∀ s a t o, ok s a → step s a = some t → I s → Old s o → Old t o)
    (hnew : ∀ s a t, ok s a → step s a = some t → I s → (out s a).Nodup ∧ ∀ o ∈ out s a, ¬Old s o ∧ Old t o)
    (h : Steps step ok s as t) (hs : I s) : (outputs step out s as).Nodup ∧ ∀ o ∈ outputs step out s as, ¬Old s o := by
  induction h with
  | nil s => exact ⟨nodup_nil, fun o ho => absurd ho not_mem_nil⟩
  | @cons s u v a as hok hst _ ih =>
    obtain ⟨hnodup, hfresh⟩ := ih (hinv s a u hok hst hs)
    obtain ⟨hone, hout⟩ := hnew s a u hok hst hs
    rw [outputs_cons hst]
    constructor
    · apply nodup_append.mpr
      refine ⟨hone, hnodup, ?_⟩
      rintro o ho _ hlater rfl
      exact hfresh o hlater (hout o ho).2
    · intro o ho hold
      rcases mem_append.mp ho with ho | ho
      · exact (hout o ho).1 hold
      · exact hfresh o ho (hkeep s a u o hok hst hs hold)

theorem nodup_outputs_iff_steps (hone : ∀ s a, (out s a).Nodup)
    (hold : ∀ s a t o, step s a = some t → (Old t o ↔ Old s o ∨ o ∈ out s a)) (h : run step s as = some t) :
    ((outputs step out s as).Nodup ∧ ∀ o ∈ outputs step out s as, ¬Old s o) ↔
      Steps step (fun s a => ∀ o ∈ out s a, ¬Old s o) s as t := by
  induction as generalizing s with
  | nil =>
    cases h
    exact iff_of_true ⟨nodup_nil, fun o ho => absurd ho not_mem_nil⟩ (.nil _)
  | cons a as ih =>
    obtain ⟨u, hu, hr⟩ := bind_eq_some_iff.mp h
    rw [outputs_cons hu, steps_cons_iff hu, ← ih hr, nodup_append]
    constructor
    · rintro ⟨⟨-, hnodup, hdisjoint⟩, hfresh⟩
      refine ⟨fun o ho => hfresh o (mem_append_left _ ho), hnodup, fun o ho hold' => ?_⟩
      rcases (hold s a u o hu).mp hold' with hs | hnow
      · exact hfresh o (mem_append_right _ ho) hs
      · exact hdisjoint o hnow o ho rfl
    · rintro ⟨hnow, hnodup, hfresh⟩
      refine ⟨⟨hone s a, hnodup, ?_⟩, fun o ho hs => ?_⟩
      · rintro o ho _ hlater rfl
        exact hfresh o hlater ((hold s a u o hu).mpr (.inr ho))
      · rcases mem_append.mp ho with ho | ho
        · exact hnow o ho hs
        · exact hfresh o ho ((hold s a u o hu).mpr (.inl hs))

theorem filterMap_outputs {Q : Type} (step : S → A → Option S) (out : S → A → List O) (f : O → Option Q) (s : S)
    (as : List A) :
    (outputs step out s as).filterMap f = outputs step (fun s a => (out s a).filterMap f) s as := by
  induction as generalizing s with
  | nil => rfl
  | cons a as ih =>
    rw [outputs, outputs, filterMap_append]
    cases hstep : step s a with
    | none => rfl
    | some t => exact congrArg (_ ++ ·) (ih t)

theorem mem_of_outputs_eq_append {Ready : S → O → Prop} {needs : O → Option O}
    (hinv : ∀ s a t, step s a = some t → I s → I t)
    (hready : ∀ s a t o, step s a = some t → Ready t o → Ready s o ∨ o ∈ out s a)
    (hout : ∀ s a o d, I s → o ∈ out s a → needs o = some d → Ready s d) (h : run step s as = some t) (hI : I s)
    {before after : List O} {o d : O} (hsplit : outputs step out s as = before ++ o :: after)
    (hneeds : needs o = some d) : d ∈ before ∨ Ready s d := by
  induction as generalizing s before with
  | nil => exact absurd hsplit (by simp [outputs])
  | cons a as ih =>
    obtain ⟨u, hu, hr⟩ := bind_eq_some_iff.mp h
    rw [outputs_cons hu] at hsplit
    have hlater : ∀ later, before = out s a ++ later → outputs step out u as = later ++ o :: after →
        d ∈ before ∨ Ready s d := by
      rintro later rfl hrest
      rcases ih hr (hinv s a u hu hI) hrest with hmem | hthen
      · exact .inl (mem_append_right _ hmem)
      · exact (hready s a u d hu hthen).symm.imp_left (mem_append_left _)
    rcases append_eq_append_iff.mp hsplit with ⟨later, hbefore, hrest⟩ | ⟨now, hnow, hrest⟩
    · exact hlater later hbefore hrest
    cases now with
    | nil => exact hlater [] (by simpa using hnow.symm) hrest.symm
    | cons o' now =>
      obtain ⟨rfl, -⟩ := List.cons.inj hrest
      exact .inr (hout s a o d hI (by simp [hnow]) hneeds)

end Foundation.Transition
