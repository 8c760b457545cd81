import Intcode.Network.Chain
import Intcode.Network.Rotation

namespace Intcode

/-! # Runs beside one another

Machines and networks run on any effects. Where the effects of two runs correspond, call by call,
the runs correspond as a whole.
-/

/-- What it is for computations with two kinds of effects to correspond: it holds of the same
answers, and of one computation after another. -/
structure Correspondence (m n : Type → Type) [Monad m] [Monad n] where
  Holds : {α : Type} → m α → n α → Prop
  pure : ∀ {α : Type} (value : α), Holds (pure value) (pure value)
  bind : ∀ {α β : Type} {left : m α} {right : n α} {next : α → m β} {after : α → n β},
    Holds left right → (∀ value, Holds (next value) (after value)) →
      Holds (left >>= next) (right >>= after)

namespace Correspondence

variable {m n : Type → Type} [Monad m] [Monad n] (corresponds : Correspondence m n)
  {α β σ : Type}

theorem map [LawfulMonad m] [LawfulMonad n] {left : m α} {right : n α} (rule : α → β)
    (same : corresponds.Holds left right) : corresponds.Holds (rule <$> left) (rule <$> right) := by
  rw [map_eq_pure_bind, map_eq_pure_bind]
  exact corresponds.bind same fun value => corresponds.pure (rule value)

theorem forM {left : α → m PUnit} {right : α → n PUnit}
    (same : ∀ value, corresponds.Holds (left value) (right value)) (values : List α) :
    corresponds.Holds (values.forM left) (values.forM right) := by
  induction values with
  | nil => exact corresponds.pure PUnit.unit
  | cons value rest ih => exact corresponds.bind (same value) fun _ => ih

/-- Computations with a state of their own correspond if they do from every state. -/
def stateT (σ : Type) : Correspondence (StateT σ m) (StateT σ n) where
  Holds left right := ∀ state, corresponds.Holds (left.run state) (right.run state)
  pure value state := corresponds.pure (value, state)
  bind first later state :=
    corresponds.bind (first state) fun (value, state) => later value state

theorem lift {left : m α} {right : n α} (same : corresponds.Holds left right) :
    (corresponds.stateT σ).Holds (liftM left) (liftM right) :=
  fun state => corresponds.bind same fun value => corresponds.pure (value, state)

theorem modifyGet (change : σ → α × σ) :
    (corresponds.stateT σ).Holds (modifyGet change) (modifyGet change) :=
  fun state => corresponds.pure (change state)

/-- Computations that give the same answer from related states, and leave related states. -/
def keeping {σ τ : Type} (Related : σ → τ → Prop) : Correspondence (StateM σ) (StateM τ) where
  Holds left right := ∀ state other, Related state other →
    (left.run state).1 = (right.run other).1 ∧ Related (left.run state).2 (right.run other).2
  pure _ _ _ related := ⟨rfl, related⟩
  bind {_ _ left _ _ after} first later state other related := by
    obtain ⟨same, related⟩ := first state other related
    have rest := later (left.run state).1 _ _ related
    rw [congrArg after same] at rest
    exact rest

end Correspondence

variable {m n : Type → Type} [Monad m] [Monad n] {corresponds : Correspondence m n}

structure Ports.Correspond (corresponds : Correspondence m n) (ports : Ports m) (others : Ports n) :
    Prop where
  read : corresponds.Holds ports.read others.read
  write : ∀ word, corresponds.Holds (ports.write word) (others.write word)

variable {ports : Ports m} {others : Ports n} {report : Event → m Unit} {other : Event → n Unit}

namespace Machine

theorem resume_corresponds (same : ports.Correspond corresponds others) (fuel : Nat)
    (machine : Machine) :
    corresponds.Holds (machine.resume ports fuel) (machine.resume others fuel) := by
  unfold resume
  cases machine.phase with
  | reading instruction => exact corresponds.bind same.read fun offer => corresponds.pure _
  | writing word => exact corresponds.bind (same.write word) fun _ => corresponds.pure _
  | running | halted | faulted => exact corresponds.pure _

/-- Machines whose ports correspond run alike. -/
theorem run_corresponds (same : ports.Correspond corresponds others)
    (told : ∀ event, corresponds.Holds (report event) (other event)) (fuel : Nat)
    (machine : Machine) :
    corresponds.Holds (machine.run ports report fuel) (machine.run others other fuel) := by
  induction fuel generalizing machine with
  | zero => exact corresponds.pure none
  | succ fuel ih =>
      refine corresponds.bind (resume_corresponds same fuel machine) fun answer => ?_
      cases answer with
      | none => exact corresponds.pure none
      | some stopped =>
          obtain ⟨machine, outcome⟩ := stopped
          refine corresponds.bind (corresponds.forM told _) fun _ => ?_
          cases outcome with
          | error fault => exact corresponds.pure _
          | ok reason =>
              cases reason with
              | halted => exact corresponds.pure _
              | aboutToInput | afterInput | aboutToOutput | afterOutput => exact ih machine

end Machine

theorem Endpoints.ports_correspond :
    (Endpoints.ports (m := m)).Correspond (corresponds.stateT Endpoints)
      (Endpoints.ports (m := n)) where
  read := corresponds.modifyGet Endpoints.read
  write word := corresponds.modifyGet fun ends : Endpoints => ((), ends.write word)

namespace Chain

variable {program : Program} {index : Nat} {phase signal : Word}

theorem stage_corresponds (told : ∀ event, corresponds.Holds (report event) (other event))
    (fuel : Nat) :
    corresponds.Holds (stage report fuel program index phase signal)
      (stage other fuel program index phase signal) := by
  refine corresponds.bind (told _) fun _ => ?_
  have toldBeside (event : Event) :
      (corresponds.stateT Endpoints).Holds (liftM (report event)) (liftM (other event)) :=
    corresponds.lift (told event)
  have ran := Machine.run_corresponds Endpoints.ports_correspond toldBeside fuel (.ofProgram program)
  refine corresponds.bind (ran _) fun (answer, ends) => ?_
  match answer with
  | none => exact corresponds.pure _
  | some (.error fault) => exact corresponds.pure _
  | some (.ok memory) =>
      dsimp only
      cases ends.outbox.back? with
      | none => exact corresponds.pure _
      | some signal => exact corresponds.bind (told _) fun _ => corresponds.pure _

theorem runFrom_corresponds (told : ∀ event, corresponds.Holds (report event) (other event))
    (fuel : Nat) (phases : List Word) :
    corresponds.Holds (runFrom report fuel program index signal phases)
      (runFrom other fuel program index signal phases) := by
  induction phases generalizing index signal with
  | nil => exact corresponds.pure _
  | cons phase rest ih =>
      refine corresponds.bind (stage_corresponds told fuel) fun answer => ?_
      match answer with
      | some (.ok signal) => exact ih
      | some (.error error) => exact corresponds.pure _
      | none => exact corresponds.pure _

theorem run_corresponds (told : ∀ event, corresponds.Holds (report event) (other event))
    (fuel : Nat) (program : Program) (phases : List Word) :
    corresponds.Holds (run report fuel program phases) (run other fuel program phases) := by
  unfold run
  split
  · exact corresponds.pure _
  · exact runFrom_corresponds told fuel phases

end Chain

theorem Rotation.run_corresponds (told : ∀ event, corresponds.Holds (report event) (other event))
    {last : Nat} (fuel : Nat) (rotation : Rotation last) :
    corresponds.Holds (rotation.run report fuel) (rotation.run other fuel) := by
  induction fuel generalizing rotation with
  | zero => exact corresponds.pure none
  | succ fuel ih =>
      unfold run
      cases rotation.step? fuel with
      | none => exact corresponds.pure none
      | some answer =>
          obtain ⟨events, next⟩ := answer
          refine corresponds.bind (corresponds.forM told events) fun _ => ?_
          cases next with
          | inl rotation => exact ih rotation
          | inr signal => exact corresponds.pure _

theorem Ring.run_corresponds (told : ∀ event, corresponds.Holds (report event) (other event))
    (fuel : Nat) (program : Program) (phases : List Word) :
    corresponds.Holds (run report fuel program phases) (run other fuel program phases) := by
  cases phases with
  | nil => exact corresponds.pure _
  | cons phase rest =>
      exact corresponds.bind (corresponds.forM told _) fun _ => Rotation.run_corresponds told fuel _

end Intcode
