import Mathlib.Tactic
import Rtl8188eu.LiteralIndex

/-!
# Runs of a state machine

A run feeds a list of events to a step function. `Along` says that something holds of
every event of a run in the state it meets. A property that some events turn on and some
turn off is on at the end exactly when an event turned it on and none turned it off later,
or when it was on from the start and none turned it off (`latch_iff`).

`runM` is a run whose steps may stop the machine, and `invariant_runM` its induction. With
`AlongM` the step only has to keep the invariant on the events of the run
(`invariant_alongM`).
-/

namespace Runs

variable {σ ε : Type*}

/-- The state after the events `es`. -/
def run (step : σ → ε → σ) (s : σ) (es : List ε) : σ := es.foldl step s

/-- `P` holds of every event in the state it meets. -/
def Along (step : σ → ε → σ) (P : σ → ε → Prop) : σ → List ε → Prop
  | _, [] => True
  | s, e :: es => P s e ∧ Along step P (step s e) es

instance Along.decidable {step : σ → ε → σ} {P : σ → ε → Prop} [∀ s e, Decidable (P s e)] :
    ∀ (s : σ) (es : List ε), Decidable (Along step P s es)
  | _, [] => inferInstanceAs (Decidable True)
  | s, e :: es =>
    have : Decidable (Along step P (step s e) es) := Along.decidable (step s e) es
    inferInstanceAs (Decidable (P s e ∧ Along step P (step s e) es))

theorem run_cons (step : σ → ε → σ) (s : σ) (e : ε) (es : List ε) :
    run step s (e :: es) = run step (step s e) es := rfl

theorem run_append (step : σ → ε → σ) (s : σ) (es fs : List ε) :
    run step s (es ++ fs) = run step (run step s es) fs := List.foldl_append

theorem run_concat (step : σ → ε → σ) (s : σ) (es : List ε) (e : ε) :
    run step s (es ++ [e]) = step (run step s es) e := by
  rw [run_append]
  rfl

theorem along_append {step : σ → ε → σ} {P : σ → ε → Prop} :
    ∀ {es : List ε} {s : σ} {fs : List ε},
      Along step P s (es ++ fs) ↔ Along step P s es ∧ Along step P (run step s es) fs
  | [], s, fs => by simp [Along, run]
  | e :: es, s, fs => by
    rw [List.cons_append, Along, Along, @along_append step P es (step s e) fs, and_assoc]
    rfl

theorem along_concat {step : σ → ε → σ} {P : σ → ε → Prop} {s : σ} {es : List ε} {e : ε} :
    Along step P s (es ++ [e]) ↔ Along step P s es ∧ P (run step s es) e := by
  rw [along_append]
  simp [Along]

/-- What holds at the start and is kept by every step holds after every run. -/
theorem invariant_run {step : σ → ε → σ} {I : List ε → σ → Prop} {s : σ} (h0 : I [] s)
    (hstep : ∀ es e u, I es u → I (es ++ [e]) (step u e)) (es : List ε) :
    I es (run step s es) := by
  induction es using List.reverseRecOn with
  | nil => exact h0
  | append_singleton es e ih =>
    rw [run_concat]
    exact hstep es e _ ih

/-- What holds at the start, and is kept by the steps that meet `P`, holds after every run
along which `P` holds. -/
theorem invariant_along {step : σ → ε → σ} {P : σ → ε → Prop} {I : σ → Prop}
    (hstep : ∀ u e, I u → P u e → I (step u e)) :
    ∀ (es : List ε) {s : σ}, I s → Along step P s es → I (run step s es)
  | [], _, hs, _ => hs
  | e :: es, s, hs, ⟨he, hes⟩ => invariant_along hstep es (hstep s e hs he) hes

/-- A property `Q` that, under an invariant, a step keeps exactly when it meets `P` : it holds in
every state of a run exactly when `P` holds along the run. -/
theorem forall_prefix_iff_along {step : σ → ε → σ} {P : σ → ε → Prop} {I Q : σ → Prop}
    (hI : ∀ u e, I u → I (step u e)) (hQ : ∀ u e, I u → Q u → (P u e ↔ Q (step u e))) :
    ∀ (es : List ε) {s : σ}, I s → Q s →
      ((∀ pre, pre <+: es → Q (run step s pre)) ↔ Along step P s es)
  | [], s, _, hs => by
    refine ⟨fun _ => trivial, fun _ pre hpre => ?_⟩
    rw [List.prefix_nil.mp hpre]
    exact hs
  | e :: es, s, hi, hs => by
    rw [Along, hQ s e hi hs]
    constructor
    · intro h
      have he : Q (step s e) := h [e] (by simp)
      refine ⟨he, (forall_prefix_iff_along hI hQ es (hI s e hi) he).mp fun pre hpre => ?_⟩
      exact h (e :: pre) (by simpa using hpre)
    · rintro ⟨he, hes⟩ pre hpre
      have hall := (forall_prefix_iff_along hI hQ es (hI s e hi) he).mpr hes
      cases pre with
      | nil => exact hs
      | cons e' pre =>
        obtain ⟨rfl, htail⟩ := List.cons_prefix_cons.mp hpre
        exact hall pre htail

/-- An invariant `I` that implies `Q`, and that a step keeps if it meets `P`, while `Q` does not
hold behind any other step : `Q` holds in every state of a run exactly when `P` holds along the
run. -/
theorem forall_prefix_iff_along_of {step : σ → ε → σ} {P : σ → ε → Prop} {I Q : σ → Prop}
    (hQ : ∀ u, I u → Q u)
    (hgood : ∀ u e, I u → P u e → I (step u e)) (hbad : ∀ u e, I u → ¬P u e → ¬Q (step u e)) :
    ∀ (es : List ε) {s : σ}, I s → ((∀ pre, pre <+: es → Q (run step s pre)) ↔ Along step P s es)
  | [], s, hs => by
    refine ⟨fun _ => trivial, fun _ pre hpre => ?_⟩
    rw [List.prefix_nil.mp hpre]
    exact hQ s hs
  | e :: es, s, hs => by
    rw [Along]
    constructor
    · intro h
      have he : P s e := by
        by_contra hnot
        exact hbad s e hs hnot (h [e] (List.prefix_append [e] es))
      refine ⟨he, (forall_prefix_iff_along_of hQ hgood hbad es (hgood s e hs he)).mp
        fun pre hpre => ?_⟩
      exact h (e :: pre) (List.cons_prefix_cons.mpr ⟨rfl, hpre⟩)
    · rintro ⟨he, hes⟩ pre hpre
      cases pre with
      | nil => exact hQ s hs
      | cons e' pre =>
        obtain ⟨rfl, htail⟩ := List.cons_prefix_cons.mp hpre
        exact (forall_prefix_iff_along_of hQ hgood hbad es (hgood s e' hs he)).mpr hes pre htail

/-- A property that `on` events turn on, and `off` events turn off unless they turn it on,
holds at the end of a run exactly when the last event about it turned it on. -/
theorem latch_iff {step : σ → ε → σ} {b : σ → Prop} {on off : σ → ε → Prop}
    (h : ∀ s e, b (step s e) ↔ on s e ∨ (b s ∧ ¬ off s e)) (s : σ) (es : List ε) :
    b (run step s es) ↔
      (∃ pre e post, es = pre ++ e :: post ∧ on (run step s pre) e ∧
        Along step (fun t e => ¬ off t e) (run step s (pre ++ [e])) post) ∨
      (b s ∧ Along step (fun t e => ¬ off t e) s es) := by
  induction es using List.reverseRecOn with
  | nil => simp [run, Along]
  | append_singleton es e ih =>
    rw [run_concat, h, ih, along_concat]
    constructor
    · rintro (hon | ⟨⟨pre, e', post, rfl, hon, hpost⟩ | ⟨hb, hes⟩, hoff⟩)
      · exact Or.inl ⟨es, e, [], rfl, hon, trivial⟩
      · refine Or.inl ⟨pre, e', post ++ [e], by simp, hon, ?_⟩
        rw [along_concat]
        refine ⟨hpost, ?_⟩
        rw [← run_append]
        simpa using hoff
      · exact Or.inr ⟨hb, hes, hoff⟩
    · rintro (⟨pre, e', post, heq, hon, hpost⟩ | ⟨hb, hes, hoff⟩)
      · rcases List.eq_nil_or_concat post with rfl | ⟨post', f, rfl⟩
        · obtain ⟨rfl, rfl⟩ := List.append_inj' heq rfl |>.imp_right (List.cons.inj · |>.1)
          exact Or.inl hon
        · have heq' : es ++ [e] = (pre ++ e' :: post') ++ [f] := by simpa using heq
          obtain ⟨rfl, hf⟩ := List.append_inj' heq' rfl
          obtain rfl := (List.cons.inj hf).1
          rw [List.concat_eq_append, along_concat, ← run_append] at hpost
          refine Or.inr ⟨Or.inl ⟨pre, e', post', rfl, hon, hpost.1⟩, ?_⟩
          simpa using hpost.2
      · exact Or.inr ⟨Or.inr ⟨hb, hes⟩, hoff⟩

/-! ## Steps that may stop the machine -/

/-- The state after the events `es`, if no step stops the machine. -/
def runM (step : σ → ε → Option σ) (s : σ) (es : List ε) : Option σ := es.foldlM step s

theorem runM_cons {step : σ → ε → Option σ} {s t : σ} {es : List ε} {e : ε} :
    runM step s (e :: es) = some t ↔ ∃ u, step s e = some u ∧ runM step u es = some t :=
  Option.bind_eq_some_iff

theorem runM_concat {step : σ → ε → Option σ} {s t : σ} {es : List ε} {e : ε} :
    runM step s (es ++ [e]) = some t ↔ ∃ u, runM step s es = some u ∧ step u e = some t := by
  simp [runM, List.foldlM_append, Option.bind_eq_some_iff]

/-- What holds at the start and is kept by every step holds after every run. -/
theorem invariant_runM {step : σ → ε → Option σ} {I : List ε → σ → Prop} {s : σ} (h0 : I [] s)
    (hstep : ∀ es e u t, I es u → step u e = some t → I (es ++ [e]) t) :
    ∀ {es : List ε} {t : σ}, runM step s es = some t → I es t := by
  intro es
  induction es using List.reverseRecOn with
  | nil =>
    intro t h
    cases h
    exact h0
  | append_singleton es e ih =>
    intro t h
    obtain ⟨u, hu, he⟩ := runM_concat.mp h
    exact hstep es e u t (ih hu) he

/-- If every step from a state with the invariant goes on with the invariant, so does every run. -/
theorem exists_runM {step : σ → ε → Option σ} {I : σ → Prop}
    (hstep : ∀ u e, I u → ∃ t, step u e = some t ∧ I t) :
    ∀ (es : List ε) {s : σ}, I s → ∃ t, runM step s es = some t ∧ I t
  | [], s, hs => ⟨s, rfl, hs⟩
  | e :: es, s, hs => by
    obtain ⟨u, hu, hI⟩ := hstep s e hs
    obtain ⟨t, ht, hIt⟩ := exists_runM hstep es hI
    refine ⟨t, ?_, hIt⟩
    rw [runM, List.foldlM_cons, hu]
    exact ht

/-- `P` holds of every event of a run in the state it meets. -/
def AlongM (step : σ → ε → Option σ) (P : σ → ε → Prop) : σ → List ε → Prop
  | _, [] => True
  | s, e :: es => P s e ∧ ∀ t, step s e = some t → AlongM step P t es

/-- A test along a run. -/
def checkM (step : σ → ε → Option σ) (p : σ → ε → Bool) : σ → List ε → Bool
  | _, [] => true
  | s, e :: es => p s e && (step s e).all fun t => checkM step p t es

theorem alongM_of_checkM {step : σ → ε → Option σ} {p : σ → ε → Bool} {P : σ → ε → Prop}
    (hp : ∀ s e, p s e = true → P s e) :
    ∀ {es : List ε} {s : σ}, checkM step p s es = true → AlongM step P s es
  | [], _, _ => trivial
  | e :: es, s, h => by
    rw [checkM, Bool.and_eq_true] at h
    refine ⟨hp s e h.1, fun t ht => alongM_of_checkM hp ?_⟩
    have htail := h.2
    rwa [ht, Option.all_some] at htail

theorem AlongM.and {step : σ → ε → Option σ} {P Q : σ → ε → Prop} :
    ∀ {es : List ε} {s : σ}, AlongM step P s es → AlongM step Q s es →
      AlongM step (fun s e => P s e ∧ Q s e) s es
  | [], _, _, _ => trivial
  | _ :: _, _, ⟨hp, hps⟩, ⟨hq, hqs⟩ => ⟨⟨hp, hq⟩, fun t ht => (hps t ht).and (hqs t ht)⟩

instance AlongM.decidable {step : σ → ε → Option σ} {P : σ → ε → Prop}
    [∀ s e, Decidable (P s e)] : ∀ (s : σ) (es : List ε), Decidable (AlongM step P s es)
  | _, [] => inferInstanceAs (Decidable True)
  | s, e :: es =>
    have : Decidable (∀ t, step s e = some t → AlongM step P t es) :=
      match step s e with
      | none => isTrue fun _ ht => nomatch ht
      | some u =>
        have : Decidable (AlongM step P u es) := AlongM.decidable u es
        decidable_of_iff (AlongM step P u es)
          ⟨fun h _ ht => Option.some.inj ht ▸ h, fun h => h u rfl⟩
    inferInstanceAs (Decidable (P s e ∧ ∀ t, step s e = some t → AlongM step P t es))

/-- What holds at the start, and is kept by the steps that meet `P`, holds after every run
along which `P` holds. -/
theorem invariant_alongM {step : σ → ε → Option σ} {P : σ → ε → Prop} {I : σ → Prop}
    (hstep : ∀ u e t, I u → P u e → step u e = some t → I t) :
    ∀ {es : List ε} {s t : σ}, I s → AlongM step P s es → runM step s es = some t → I t
  | [], s, t, hs, _, hrun => by
    cases hrun
    exact hs
  | e :: es, s, t, hs, ⟨he, hes⟩, hrun => by
    obtain ⟨u, hu, hrun⟩ := runM_cons.mp hrun
    exact invariant_alongM hstep (hstep s e u hs he hu) (hes u hu) hrun

theorem alongM_of_forall {step : σ → ε → Option σ} {P : ε → Prop} :
    ∀ {es : List ε} {s : σ}, (∀ e ∈ es, P e) → AlongM step (fun _ e => P e) s es
  | [], _, _ => trivial
  | e :: _, _, h => ⟨h e (List.mem_cons_self ..),
    fun _ _ => alongM_of_forall fun e he => h e (List.mem_cons_of_mem _ he)⟩

/-- What the invariant says about the events that meet `P` holds of every event of a run along
which `P` holds. -/
theorem alongM_of_invariant {step : σ → ε → Option σ} {P Q : σ → ε → Prop} {I : σ → Prop}
    (hstep : ∀ u e t, I u → P u e → step u e = some t → I t) (hQ : ∀ u e, I u → P u e → Q u e) :
    ∀ {es : List ε} {s : σ}, I s → AlongM step P s es → AlongM step Q s es
  | [], _, _, _ => trivial
  | e :: _, s, hs, ⟨he, hes⟩ =>
    ⟨hQ s e hs he, fun t ht => alongM_of_invariant hstep hQ (hstep s e t hs he ht) (hes t ht)⟩

end Runs
