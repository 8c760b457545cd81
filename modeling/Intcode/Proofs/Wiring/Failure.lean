import Intcode.Proofs.Machine.Completion
import Intcode.Proofs.Wiring.Protocol

namespace Intcode

namespace Wiring

variable {World Rest : Type} {wiring : Wiring World} {start machine : Machine}
  {world left : World} {stop : Stop} {stops : List Stop} {taken written inputs outputs : List Word}
  {program : Program} {fault : Fault}

/-- As long as no instruction has failed, the words read and written are those that whole
instructions took and handed out. -/
structure Accounts (wiring : Wiring World) (start : Machine) (stops : List Stop)
    (machine : Machine) (taken written : List Word) : Prop where
  underway : start.Underway taken written machine
  reads : stops.flatMap Stop.reads = taken.map some
  writes : wiring.sink.isSome → stops.flatMap Stop.writes = written

theorem Accounts.init (wiring : Wiring World) (program : Program) :
    wiring.Accounts (.ofProgram program) [] (.ofProgram program) [] [] :=
  ⟨.between rfl .start, rfl, fun _ => rfl⟩

theorem Accounts.silent_writes (accounts : wiring.Accounts start stops machine taken written)
    (writes : stop.writes = []) (connected : wiring.sink.isSome) :
    (stops ++ [stop]).flatMap Stop.writes = written := by
  simp [accounts.writes connected, writes]

theorem Accounts.silent (accounts : wiring.Accounts start stops machine taken written)
    (underway : start.Underway taken written stop.after) (reads : stop.reads = [])
    (writes : stop.writes = []) :
    wiring.Accounts start (stops ++ [stop]) stop.after taken written where
  underway := underway
  reads := by simp [accounts.reads, reads]
  writes := accounts.silent_writes writes

theorem Accounts.complete (accounts : wiring.Accounts start stops machine taken written)
    (running : stop.after.phase = .running)
    (executed : start.Executes (taken ++ inputs) (written ++ outputs) stop.after)
    (reads : stop.reads = inputs.map some) (writes : wiring.sink.isSome → stop.writes = outputs) :
    wiring.Accounts start (stops ++ [stop]) stop.after (taken ++ inputs) (written ++ outputs) where
  underway := .between running executed
  reads := by simp [accounts.reads, reads]
  writes connected := by simp [accounts.writes connected, writes connected]

/-- A resume that does not fail completes instructions or announces one. -/
theorem Accounts.next (accounts : wiring.Accounts start stops machine taken written)
    (continues : wiring.Continues machine world stop left) :
    (∃ fault, stop.outcome = .error fault) ∨
      ∃ taken written, wiring.Accounts start (stops ++ [stop]) stop.after taken written := by
  cases continues with
  | @advanced _ after outcome phase advanced =>
      have settled := Machine.settles_iff_advance.mpr ⟨_, advanced⟩
      obtain ⟨last, executed, stepped⟩ := (accounts.underway.executes phase).settle settled
      cases outcome with
      | error fault => exact .inl ⟨fault, rfl⟩
      | ok reason =>
          exact .inr ⟨_, _, accounts.silent (.announced executed stepped) rfl rfl⟩
  | unfed phase _ received =>
      cases received
      exact .inl ⟨_, rfl⟩
  | @fed instruction take after outcome phase connected received =>
      rcases Machine.receive_cases received with
        ⟨word, address, offer, resolved, rfl, rfl⟩ | ⟨fault, rfl, rfl⟩
      · obtain ⟨last, executed, stepped⟩ := accounts.underway.asked phase
        cases answer : (take world).1 with
        | none =>
            rw [answer] at offer
            cases offer
        | some taken =>
            rw [answer] at received
            have completes := executed.complete (.input stepped phase received)
            exact .inr ⟨_, _, accounts.complete rfl completes rfl fun _ => rfl⟩
      · exact .inl ⟨fault, rfl⟩
  | dropped phase missing =>
      obtain ⟨last, executed, stepped⟩ := accounts.underway.offered phase
      have completes := executed.complete (.output stepped phase)
      refine .inr ⟨_, _, accounts.complete rfl completes rfl fun connected => ?_⟩
      rw [missing] at connected
      cases connected
  | wrote phase connected =>
      obtain ⟨last, executed, stepped⟩ := accounts.underway.offered phase
      have completes := executed.complete (.output stepped phase)
      exact .inr ⟨_, _, accounts.complete rfl completes rfl fun _ => rfl⟩
  | halted phase => exact .inr ⟨_, _, accounts.silent accounts.underway rfl rfl⟩
  | faulted => exact .inl ⟨_, rfl⟩

theorem faulted_or_accounts (reached : Reaches wiring.Visits (.ofProgram program) stops machine) :
    (∃ fault, machine.phase = .faulted fault) ∨
      ∃ taken written, wiring.Accounts (.ofProgram program) stops machine taken written := by
  induction reached with
  | start => exact .inr ⟨[], [], .init wiring program⟩
  | @move stops before after stop _ visited ih =>
      obtain ⟨rfl, world, left, resumed⟩ := visited
      have continues := resumed.continues
      rcases ih with ⟨fault, phase⟩ | ⟨taken, written, accounts⟩
      · cases continues with
        | faulted => exact .inl ⟨fault, phase⟩
        | advanced other | unfed other | fed other | dropped other | wrote other | halted other =>
            rw [phase] at other
            cases other
      · rcases accounts.next continues with ⟨fault, failed⟩ | accounts
        · have stands := continues.stands
          rw [failed] at stands
          generalize stop.after.phase = phase at stands
          cases stands with
          | faulted => exact .inl ⟨fault, rfl⟩
        · exact .inr accounts

theorem phase_of_fresh (reached : Reaches wiring.Visits (.ofProgram program) stops machine)
    (fresh : ∀ fault, Stop.last? stops ≠ some (.error fault)) :
    machine.phase ≠ .faulted fault := by
  intro phase
  cases reached with
  | start => cases phase
  | @move stops _ _ stop _ visited =>
      obtain ⟨rfl, world, left, resumed⟩ := visited
      have stands := resumed.continues.stands
      rw [phase] at stands
      generalize answered : stop.outcome = outcome at stands
      cases stands with
      | faulted => exact fresh fault (by simp [Stop.last?, answered])

/-- A new error finds memory, base and output as the last whole instruction left them, and names
the address at which that one left the pointer. Of the queue it takes a word only if that word
was meant for a negative address. -/
theorem failing_instruction_has_no_effect {Rest : Type}
    {sink : Option (Word → List Word × Rest → List Word × Rest)} {left : List Word × Rest}
    (program : Program) (queue : List Word) (rest : Rest)
    (reached : Reaches (queued sink).Visits (.ofProgram program) stops machine)
    (fresh : ∀ fault, Stop.last? stops ≠ some (.error fault))
    (resumed : (queued sink).Resumes machine (queue, rest) stop left)
    (failed : stop.outcome = .error fault) :
    ∃ last taken written,
      (Machine.ofProgram program).Executes taken written last ∧
      last.Fails (.ofValue? queue.head?) fault ∧
      stops.flatMap Stop.reads = taken.map some ∧
      (sink.isSome → (stops ++ [stop]).flatMap Stop.writes = written) ∧
      stop.after.memory = last.memory ∧ stop.after.base = last.base ∧
      fault.address = last.pointer ∧
      if fault.kind.isNegativeAddress = true ∧
          Instruction.opcodeAt? stop.after.memory fault.address = some .input
        then ∃ word, queue = word :: left.1 ∧ left.2 = rest
        else left = (queue, rest) := by
  obtain ⟨taken, written, accounts⟩ :=
    (faulted_or_accounts reached).resolve_left fun ⟨_, phase⟩ => phase_of_fresh reached fresh phase
  cases resumed.continues with
  | @advanced _ after outcome phase advanced =>
      subst failed
      have settled := Machine.settles_iff_advance.mpr ⟨_, advanced⟩
      obtain ⟨last, aborts, other⟩ :=
        (accounts.underway.executes phase).aborts settled (.ofValue? queue.head?)
      refine ⟨last, taken, written, aborts.executed, aborts.fails, accounts.reads,
        accounts.silent_writes rfl, aborts.memory, aborts.base, aborts.address, ?_⟩
      rw [if_neg fun ⟨negative, input⟩ => Bool.false_ne_true ((other input).symm.trans negative)]
  | @fed instruction take after outcome phase connected received =>
      subst failed
      cases connected
      obtain ⟨last, aborts, input, negative⟩ := accounts.underway.aborts phase received
      refine ⟨last, taken, written, aborts.executed, aborts.fails, accounts.reads,
        accounts.silent_writes rfl, aborts.memory, aborts.base, aborts.address, ?_⟩
      cases queue with
      | nil =>
          rw [if_neg]
          · rfl
          · rintro ⟨lost, _⟩
            obtain ⟨word, offer⟩ := negative.mp lost
            cases offer
      | cons word queue =>
          rw [if_pos ⟨negative.mpr ⟨word, rfl⟩, input⟩]
          exact ⟨word, rfl, rfl⟩
  | unfed _ missing => cases missing
  | dropped | wrote | halted => cases failed
  | faulted phase => exact absurd phase (phase_of_fresh reached fresh)

/-- The base is 5 when a word is asked for that belongs to the cell 6 below it. -/
theorem lost_word_is_taken :
    ∃ stops stop machine left,
      Reaches collecting.Visits (.ofProgram ⟨[3, 9, 4, 9, 109, 5, 203, -6]⟩) stops machine ∧
      collecting.Resumes machine ([8, 3], [7]) stop left ∧
      Stop.last? stops = some (.ok .aboutToInput) ∧
      stop.outcome = .error { kind := .negativeAddress (-1), address := 6 } ∧
      (stops ++ [stop]).flatMap Stop.writes = [7] ∧ stop.after.base = 5 ∧
      stop.after.memory.get 9 = 7 ∧ ∃ word, [8, 3] = word :: left.1 ∧ left.2 = [7] := by
  have started : Reaches collecting.Visits (.ofProgram ⟨[3, 9, 4, 9, 109, 5, 203, -6]⟩) [] _ :=
    .start
  have reached := ((((started.move (visits_of_resume 1 ([7, 8], []) rfl)).move
    (visits_of_resume 0 ([7, 8], []) rfl)).move (visits_of_resume 1 ([8], []) rfl)).move
    (visits_of_resume 0 ([8], []) rfl)).move (visits_of_resume 2 ([8], [7]) rfl)
  obtain ⟨_, _, _, _, _, _, _, _, _, _, lost⟩ :=
    failing_instruction_has_no_effect _ [8, 3] [7] reached (by simp [Stop.last?])
      (resumes_of_resume 0 rfl) rfl
  exact ⟨_, _, _, _, reached, resumes_of_resume 0 rfl, rfl, rfl, rfl, rfl, rfl, lost⟩

end Wiring

end Intcode
