import Intcode.Network.Ring

namespace Intcode

/-- A ring in the middle of a round. -/
structure Rotation (last : Nat) where
  ring : Ring last
  /-- The machine whose turn it is; past the last one the round is over. -/
  turn : Nat := 0
  /-- Did a machine move in this round? -/
  progressed : Bool := false
  /-- The number of this round, from one. -/
  rounds : Nat := 1

/-- What a ring answers in the end. -/
abbrev Signal := Except NetworkError Word

namespace Rotation

/-- Ends a round: with the signal, a deadlock, or the next round. A round in
which no machine moved is a deadlock. -/
def endRound {last : Nat} (rotation : Rotation last) :
    List Event × (Rotation last ⊕ Signal) :=
  let finished := Event.roundFinished rotation.rounds rotation.progressed
  if rotation.ring.isHalted then
    let signal : Signal := rotation.ring.oldest?.elim (.error (.noOutput last)) .ok
    ([finished, .ringHalted rotation.rounds], .inr signal)
  else if rotation.progressed then
    ([finished], .inl { ring := rotation.ring, rounds := rotation.rounds + 1 })
  else ([finished], .inr (.error .deadlock))

/-- Resumes the machine whose turn it is, or passes the turn on. Without an
answer the fuel was not enough for that resume. -/
def step? {last : Nat} (rotation : Rotation last) (fuel : Nat) :
    Option (List Event × (Rotation last ⊕ Signal)) :=
  if inside : rotation.turn < last + 1 then
    let i : Fin (last + 1) := ⟨rotation.turn, inside⟩
    if rotation.ring.canResume i then
      (rotation.ring.resumeAt fuel i).map fun (ring, outcome) =>
        let events := Event.ofOutcome ring.machines[i] outcome
        match outcome with
        | .ok _ => (events, .inl { rotation with ring, progressed := true })
        | .error fault => (events, .inr (.error (.failed rotation.turn fault)))
    else some ([], .inl { rotation with turn := rotation.turn + 1 })
  else some rotation.endRound

/-- Drives a ring to its answer. -/
def run {m : Type → Type} [Monad m] (report : Event → m Unit) {last : Nat} :
    (fuel : Nat) → Rotation last → m (Option Signal)
  | 0, _ => pure none
  | fuel + 1, rotation =>
      match rotation.step? fuel with
      | none => pure none
      | some (events, next) => do
          events.forM report
          match next with
          | .inl rotation => run report fuel rotation
          | .inr signal => pure (some signal)

end Rotation

namespace Ring

/-- The signal of a ring of machines with the given phases. -/
def run {m : Type → Type} [Monad m] (report : Event → m Unit) (fuel : Nat) (program : Program) :
    (phases : List Word) → m (Option Signal)
  | [] => pure (some (.error .empty))
  | phase :: rest => do
      let phases : Vector Word (rest.length + 1) := ⟨(phase :: rest).toArray, by simp⟩
      (List.replicate (rest.length + 1) (Event.machineCreated program.size)).forM report
      Rotation.run report fuel { ring := Ring.start program phases }

end Ring

end Intcode
