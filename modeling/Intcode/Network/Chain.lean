import Intcode.Endpoints
import Intcode.Network.Error

namespace Intcode

namespace Chain

/-- Runs one machine on its phase and the signal before it. Its last output is
its own signal. -/
def stage {m : Type → Type} [Monad m] (report : Event → m Unit) (fuel : Nat) (program : Program)
    (index : Nat) (phase signal : Word) : m (Option (Except NetworkError Word)) := do
  report (.machineCreated program.size)
  let machine := Machine.ofProgram program
  let (answer, ends) ← (machine.run (m := StateT Endpoints m) Endpoints.ports
    (fun event => liftM (report event)) fuel).run (Endpoints.ofQueue [phase, signal])
  match answer with
  | none => pure none
  | some (.error fault) => pure (some (.error (.failed index fault)))
  | some (.ok _) =>
      match ends.outbox.back? with
      | none => pure (some (.error (.noOutput index)))
      | some signal =>
          report (.stageFinished index phase signal)
          pure (some (.ok signal))

/-- Runs the machines from number `index` on. -/
def runFrom {m : Type → Type} [Monad m] (report : Event → m Unit) (fuel : Nat)
    (program : Program) (index : Nat) (signal : Word) :
    (phases : List Word) → m (Option (Except NetworkError Word))
  | [] => pure (some (.ok signal))
  | phase :: rest => do
      match ← stage report fuel program index phase signal with
      | some (.ok signal) => runFrom report fuel program (index + 1) signal rest
      | answer => pure answer

/-- The signal of the last machine, where the first one gets zero. Without an
answer the fuel was not enough for one of them. -/
def run {m : Type → Type} [Monad m] (report : Event → m Unit) (fuel : Nat) (program : Program)
    (phases : List Word) : m (Option (Except NetworkError Word)) :=
  if phases.isEmpty then pure (some (.error .empty))
  else runFrom report fuel program 0 0 phases

end Chain

end Intcode
