import Mathlib.Logic.Basic

/-! Runs of a partial step function. An action that is not enabled ends the run.
Besides the usual invariant rule there is one for exact conditions: when a step
keeps a property exactly under a condition on the state before it, a whole run
keeps the property exactly when all its steps meet the condition. -/
namespace GetTogether.Realtime

universe u v w

variable {σ : Type u} {α : Type v}

/-- The state after all actions, when every one of them is enabled in turn. -/
def exec (step : σ → α → Option σ) : σ → List α → Option σ
  | s, [] => some s
  | s, a :: as => (step s a).bind fun s' => exec step s' as

def Reachable (step : σ → α → Option σ) (start final : σ) : Prop :=
  ∃ actions, exec step start actions = some final

/-- The property holds in the first state and in every state the run reaches. -/
def Always (step : σ → α → Option σ) (property : σ → Prop) : σ → List α → Prop
  | s, [] => property s
  | s, a :: as => property s ∧ ∀ s', step s a = some s' → Always step property s' as

/-- Every step of the run meets a condition on its action and the state before it. -/
def EachStep (step : σ → α → Option σ) (condition : σ → α → Prop) : σ → List α → Prop
  | _, [] => True
  | s, a :: as => ∀ s', step s a = some s' → condition s a ∧ EachStep step condition s' as

instance EachStep.decidable (step : σ → α → Option σ) (condition : σ → α → Prop)
    [∀ s a, Decidable (condition s a)] : ∀ s actions, Decidable (EachStep step condition s actions)
  | _, [] => isTrue trivial
  | s, a :: as =>
    match h : step s a with
    | none => isTrue fun s' hs' => absurd (h.symm.trans hs') nofun
    | some s' =>
      have := EachStep.decidable step condition s' as
      decidable_of_iff (condition s a ∧ EachStep step condition s' as) (by simp [EachStep, h])

variable {step : σ → α → Option σ}

theorem exec_append (s : σ) (first second : List α) :
    exec step s (first ++ second) = (exec step s first).bind fun s' => exec step s' second := by
  induction first generalizing s with
  | nil => rfl
  | cons a as ih =>
    rw [List.cons_append, exec, exec, Option.bind_assoc]
    congr 1
    funext s'
    exact ih s'

theorem Reachable.refl (s : σ) : Reachable step s s := ⟨[], rfl⟩

theorem Reachable.tail {start s s' : σ} {a : α} (h : Reachable step start s)
    (hstep : step s a = some s') : Reachable step start s' := by
  obtain ⟨as, has⟩ := h
  refine ⟨as ++ [a], ?_⟩
  rw [exec_append, has]
  simp [exec, hstep]

theorem exec_invariant {invariant : σ → Prop}
    (hstep : ∀ s a s', invariant s → step s a = some s' → invariant s') {s final : σ}
    (hs : invariant s) (actions : List α) (h : exec step s actions = some final) :
    invariant final := by
  induction actions generalizing s with
  | nil => exact Option.some.inj h ▸ hs
  | cons a as ih =>
    obtain ⟨s', hs', h⟩ := Option.bind_eq_some_iff.mp h
    exact ih (hstep s a s' hs hs') h

/-- Where every step is seen as a step of another system, a run is seen as one of its runs. -/
theorem exec_seen {τ : Type w} {step' : τ → α → Option τ} (view : σ → τ) {invariant : σ → Prop}
    (hstep : ∀ s a s', invariant s → step s a = some s' →
      invariant s' ∧ step' (view s) a = some (view s'))
    {s final : σ} (hs : invariant s) (actions : List α) (h : exec step s actions = some final) :
    invariant final ∧ exec step' (view s) actions = some (view final) := by
  induction actions generalizing s with
  | nil =>
    obtain rfl := Option.some.inj h
    exact ⟨hs, rfl⟩
  | cons a as ih =>
    obtain ⟨s', hs', h⟩ := Option.bind_eq_some_iff.mp h
    obtain ⟨hkeep, hview⟩ := hstep s a s' hs hs'
    rw [exec, hview]
    exact ih hkeep h

theorem Reachable.trans {start middle final : σ} (h : Reachable step start middle)
    (hrest : Reachable step middle final) : Reachable step start final := by
  obtain ⟨before, hbefore⟩ := h
  obtain ⟨after, hafter⟩ := hrest
  refine ⟨before ++ after, ?_⟩
  rw [exec_append, hbefore]
  exact hafter

theorem Reachable.invariant {start final : σ} (h : Reachable step start final)
    (invariant : σ → Prop) (hstart : invariant start)
    (hstep : ∀ s a s', invariant s → step s a = some s' → invariant s') : invariant final := by
  obtain ⟨actions, h⟩ := h
  exact exec_invariant hstep hstart actions h

theorem Always.head {property : σ → Prop} {s : σ} {actions : List α}
    (h : Always step property s actions) : property s := by
  cases actions with
  | nil => exact h
  | cons a as => exact h.1

theorem Always.final {property : σ → Prop} {s final : σ} {actions : List α}
    (h : Always step property s actions) (hrun : exec step s actions = some final) :
    property final := by
  induction actions generalizing s with
  | nil => exact Option.some.inj hrun ▸ h
  | cons a as ih =>
    obtain ⟨s', hs', hrun⟩ := Option.bind_eq_some_iff.mp hrun
    exact ih (h.2 s' hs') hrun

/-- A run keeps a property exactly when every step meets the condition that is
exact for one step; the invariant says what is known in the states still good. -/
theorem always_iff_eachStep (invariant : σ → Prop) {property : σ → Prop}
    {condition : σ → α → Prop}
    (hexact : ∀ s a s', invariant s → property s → step s a = some s' →
      (property s' ↔ condition s a))
    (hkeep : ∀ s a s', invariant s → property s → condition s a → step s a = some s' →
      invariant s')
    {s : σ} (hinv : invariant s) (hprop : property s) (actions : List α) :
    Always step property s actions ↔ EachStep step condition s actions := by
  induction actions generalizing s with
  | nil => exact ⟨fun _ => trivial, fun _ => hprop⟩
  | cons a as ih =>
    constructor
    · rintro ⟨-, h⟩ s' hs'
      have hcond := (hexact s a s' hinv hprop hs').mp (h s' hs').head
      have hprop' := (hexact s a s' hinv hprop hs').mpr hcond
      exact ⟨hcond, (ih (hkeep s a s' hinv hprop hcond hs') hprop').mp (h s' hs')⟩
    · intro h
      refine ⟨hprop, fun s' hs' => ?_⟩
      obtain ⟨hcond, hrest⟩ := h s' hs'
      have hprop' := (hexact s a s' hinv hprop hs').mpr hcond
      exact (ih (hkeep s a s' hinv hprop hcond hs') hprop').mpr hrest

theorem EachStep.invariant {invariant : σ → Prop} {condition : σ → α → Prop}
    (hkeep : ∀ s a s', invariant s → condition s a → step s a = some s' → invariant s')
    {s final : σ} (hs : invariant s) {actions : List α}
    (hcond : EachStep step condition s actions) (h : exec step s actions = some final) :
    invariant final := by
  induction actions generalizing s with
  | nil => exact Option.some.inj h ▸ hs
  | cons a as ih =>
    obtain ⟨s', hs', h⟩ := Option.bind_eq_some_iff.mp h
    obtain ⟨hcond, hrest⟩ := hcond s' hs'
    exact ih (hkeep s a s' hs hcond hs') hrest h

theorem EachStep.of_invariant {invariant : σ → Prop} {condition guarantee : σ → α → Prop}
    (hkeep : ∀ s a s', invariant s → condition s a → step s a = some s' → invariant s')
    (hgive : ∀ s a s', invariant s → condition s a → step s a = some s' → guarantee s a)
    {s : σ} (hinv : invariant s) {actions : List α} (h : EachStep step condition s actions) :
    EachStep step guarantee s actions := by
  induction actions generalizing s with
  | nil => trivial
  | cons a as ih =>
    intro s' hs'
    obtain ⟨hcond, hrest⟩ := h s' hs'
    exact ⟨hgive s a s' hinv hcond hs', ih (hkeep s a s' hinv hcond hs') hrest⟩

/-- Two conditions that agree under an invariant hold of the same runs. -/
theorem eachStep_iff (invariant : σ → Prop) {condition guarantee : σ → α → Prop}
    (hexact : ∀ s a s', invariant s → step s a = some s' → (guarantee s a ↔ condition s a))
    (hkeep : ∀ s a s', invariant s → condition s a → step s a = some s' → invariant s')
    {s : σ} (hinv : invariant s) (actions : List α) :
    EachStep step guarantee s actions ↔ EachStep step condition s actions := by
  constructor
  · exact EachStep.of_invariant
      (fun s a s' hinv hgood h => hkeep s a s' hinv ((hexact s a s' hinv h).mp hgood) h)
      (fun s a s' hinv hgood h => (hexact s a s' hinv h).mp hgood) hinv
  · exact EachStep.of_invariant hkeep
      (fun s a s' hinv hcond h => (hexact s a s' hinv h).mpr hcond) hinv

/-- The same system with a log computed from the steps taken. -/
def logged {γ : Type w} (step : σ → α → Option σ) (note : γ → σ → α → γ) :
    γ × σ → α → Option (γ × σ) :=
  fun s a => (step s.2 a).map fun s' => (note s.1 s.2 a, s')

theorem logged_eq_some {γ : Type w} {note : γ → σ → α → γ} {s s' : γ × σ} {a : α} :
    logged step note s a = some s' ↔ step s.2 a = some s'.2 ∧ s'.1 = note s.1 s.2 a := by
  simp only [logged, Option.map_eq_some_iff]
  constructor
  · rintro ⟨t, ht, rfl⟩
    exact ⟨ht, rfl⟩
  · rintro ⟨ht, hlog⟩
    exact ⟨s'.2, ht, Prod.ext hlog.symm rfl⟩

theorem logged_cases {γ : Type w} {note : γ → σ → α → γ} {s s' : γ × σ} {a : α}
    (h : logged step note s a = some s') :
    ∃ final, step s.2 a = some final ∧ s' = (note s.1 s.2 a, final) := by
  obtain ⟨hstep, hlog⟩ := logged_eq_some.mp h
  exact ⟨s'.2, hstep, Prod.ext hlog rfl⟩

/-- A condition that ignores the log is a condition on the runs without it. -/
theorem eachStep_logged {γ : Type w} (note : γ → σ → α → γ) {condition : σ → α → Prop}
    (s : γ × σ) (actions : List α) :
    EachStep (logged step note) (fun s a => condition s.2 a) s actions ↔
      EachStep step condition s.2 actions := by
  induction actions generalizing s with
  | nil => exact Iff.rfl
  | cons a as ih =>
    constructor
    · intro h s' hs'
      obtain ⟨hcond, hrest⟩ := h (note s.1 s.2 a, s') (logged_eq_some.mpr ⟨hs', rfl⟩)
      exact ⟨hcond, (ih _).mp hrest⟩
    · intro h s' hs'
      obtain ⟨hcond, hrest⟩ := h s'.2 (logged_eq_some.mp hs').1
      exact ⟨hcond, (ih s').mpr hrest⟩

end GetTogether.Realtime
