import Intcode.Pipes

namespace Intcode.Pipes

/-! # Pipes as queues

Whatever is done with pipes, each queue hands out just what it began with and what was put in, in
that order, and it is all the same through which of its handles. Books that are kept of what was
done and answered, and know nothing of the queues, tell which handles share one.
-/

/-- What can be done with pipes. Handles are numbered in the order in which they are made. -/
inductive Action where
  | create (values : List Word)
  | clone (handle : Nat)
  | push (handle : Nat) (word : Word)
  /-- What a machine does that has the pipe as its output. -/
  | write (handle : Nat) (word : Word)
  | pop (handle : Nat)
  /-- What a machine does that has the pipe as its input. -/
  | read (handle : Nat)
  | length (handle : Nat)
  | drain (handle : Nat)

inductive Answer where
  | done
  | taken (word? : Option Word)
  | length (count : Nat)
  | drained (words : List Word)

/-- The handle through which an action changes a queue, if it changes one. -/
def Action.target? : Action → Option Nat
  | create _ | clone _ | length _ => none
  | push handle _ | write handle _ | pop handle | read handle | drain handle => some handle

/-- Does what an action says. What is said of a handle that there is not does nothing. -/
def perform (pipes : Pipes) : Action → Answer × Pipes
  | .create values => (.done, pipes.create values)
  | .clone handle => (.done, (pipes.clone? handle).getD pipes)
  | .push handle word | .write handle word => (.done, pipes.push handle word)
  | .pop handle | .read handle => ((pipes.pop handle).map .taken id)
  | .length handle => (.length (pipes.lengths[handle]?.getD 0), pipes)
  | .drain handle => ((pipes.drain handle).map .drained id)

/-- Actions with what was answered to them. -/
abbrev History := List (Action × Answer)

/-- What actions lead to, one after the other. -/
def performAll (pipes : Pipes) : List Action → History × Pipes
  | [] => ([], pipes)
  | action :: rest =>
      let (answer, after) := pipes.perform action
      let (history, last) := after.performAll rest
      ((action, answer) :: history, last)

/-- The account of one queue. -/
structure Account where
  initial : List Word
  /-- What was put in since, through any handle. -/
  put : List Word := []
  /-- What was taken out, through any handle. -/
  taken : List Word := []

namespace Account

def putIn (account : Account) (words : List Word) : Account :=
  { account with put := account.put ++ words }

def takeOut (account : Account) (words : List Word) : Account :=
  { account with taken := account.taken ++ words }

/-- What was taken out and what is left are what there was and what was put in. -/
def Balances (account : Account) (contents : List Word) : Prop :=
  account.taken ++ contents = account.initial ++ account.put

end Account

/-- The accounts of all queues, and for each handle the number of the queue it descends from. -/
structure Books where
  accounts : List Account := []
  origins : List Nat := []

namespace Books

/-- Enters something into the account of the queue of a handle. -/
def change (books : Books) (handle : Nat) (entry : Account → Account) : Books :=
  match books.origins[handle]? with
  | some queue => { books with accounts := books.accounts.modify queue entry }
  | none => books

def enter (books : Books) : Action × Answer → Books
  | (.create values, _) =>
      { accounts := books.accounts ++ [{ initial := values }]
        origins := books.origins ++ [books.accounts.length] }
  | (.clone handle, _) =>
      { books with origins := books.origins ++ books.origins[handle]?.toList }
  | (.push handle word, _) | (.write handle word, _) => books.change handle (·.putIn [word])
  | (.pop handle, .taken word?) | (.read handle, .taken word?) =>
      books.change handle (·.takeOut word?.toList)
  | (.drain handle, .drained words) => books.change handle (·.takeOut words)
  | _ => books

def ofHistory (history : History) : Books :=
  history.foldl enter {}

end Books

variable {books : Books} {pipes : Pipes} {handle queue : Nat} {contents : List Word}
  {entry : Account → Account} {rule : List Word → List Word}

/-- The books are right about some pipes. -/
structure Tally (books : Books) (pipes : Pipes) : Prop where
  origins : pipes.handles.toList = books.origins
  known : ∀ queue ∈ books.origins, queue < books.accounts.length
  count : books.accounts.length = pipes.queues.size
  balances : ∀ (queue : Nat) (account : Account) (contents : List Word),
    books.accounts[queue]? = some account → pipes.queues[queue]? = some contents →
      account.Balances contents

theorem getElem?_push_of_eq_some {α : Type} {row : Array α} {index : Nat} {value more : α}
    (found : row[index]? = some value) : (row.push more)[index]? = some value := by
  have inside := (Array.getElem?_eq_some_iff.mp found).1
  rw [Array.getElem?_push, if_neg (Nat.ne_of_lt inside), found]

theorem tally_empty : Tally {} {} :=
  ⟨rfl, by simp, rfl, by simp⟩

namespace Tally

theorem handles_getElem? (tally : Tally books pipes) (handle : Nat) :
    pipes.handles[handle]? = books.origins[handle]? := by
  rw [← tally.origins, Array.getElem?_toList]

theorem values?_eq (tally : Tally books pipes) (named : books.origins[handle]? = some queue) :
    pipes.values? handle = pipes.queues[queue]? := by
  rw [values?, tally.handles_getElem?, named]
  rfl

/-- What is entered balances what is done to the queue. -/
theorem change (tally : Tally books pipes)
    (keeps : ∀ account contents, pipes.values? handle = some contents →
      account.Balances contents → (entry account).Balances (rule contents)) :
    Tally (books.change handle entry) (pipes.modify handle rule) := by
  unfold Books.change modify
  rw [tally.handles_getElem?]
  cases named : books.origins[handle]? with
  | none => exact tally
  | some queue =>
      refine ⟨tally.origins, ?_, ?_, ?_⟩
      · simpa using tally.known
      · simpa using tally.count
      · intro place account contents entered held
        simp only [List.getElem?_modify, Array.getElem?_modify] at entered held
        obtain ⟨before, found, rfl⟩ := Option.map_eq_some_iff.mp entered
        by_cases here : queue = place
        · subst here
          rw [if_pos rfl] at held ⊢
          obtain ⟨earlier, lies, rfl⟩ := Option.map_eq_some_iff.mp held
          have values := (tally.values?_eq named).trans lies
          exact keeps before earlier values (tally.balances _ _ _ found lies)
        · rw [if_neg here] at held ⊢
          exact tally.balances _ _ _ found held

theorem create (tally : Tally books pipes) (values : List Word) :
    Tally (books.enter (.create values, .done)) (pipes.create values) := by
  have fresh : ({ initial := values } : Account).Balances values := (List.append_nil values).symm
  refine ⟨?_, ?_, ?_, ?_⟩
  · simp only [Pipes.create, Books.enter, Array.toList_push, tally.origins, tally.count]
  · intro queue member
    simp only [Books.enter, List.length_append, List.length_singleton]
    rcases List.mem_append.mp member with old | new
    · exact Nat.lt_succ_of_lt (tally.known queue old)
    · exact List.mem_singleton.mp new ▸ Nat.lt_succ_self _
  · simp only [Pipes.create, Books.enter, List.length_append, List.length_singleton,
      Array.size_push, tally.count]
  · intro queue account contents entered held
    simp only [Pipes.create, Books.enter] at entered held
    rw [Array.getElem?_push, ← tally.count] at held
    split at held <;> rename_i last
    · rw [last, List.getElem?_concat_length] at entered
      cases entered
      cases held
      exact fresh
    · have earlier : queue < books.accounts.length := by
        have inside := (List.getElem?_eq_some_iff.mp entered).1
        simp only [List.length_append, List.length_singleton] at inside
        omega
      rw [List.getElem?_append_left earlier] at entered
      exact tally.balances queue account contents entered held

theorem clone (tally : Tally books pipes) (handle : Nat) :
    Tally (books.enter (.clone handle, .done)) ((pipes.clone? handle).getD pipes) := by
  unfold clone?
  rw [tally.handles_getElem?]
  simp only [Books.enter]
  cases named : books.origins[handle]? with
  | none =>
      rw [Option.toList_none, List.append_nil]
      exact tally
  | some queue =>
      refine ⟨?_, ?_, tally.count, tally.balances⟩
      · simp only [Option.map_some, Option.getD_some, Array.toList_push, tally.origins,
          Option.toList_some]
      · intro place member
        rcases List.mem_append.mp member with old | new
        · exact tally.known place old
        · rw [Option.toList_some, List.mem_singleton] at new
          exact new ▸ tally.known queue (List.mem_of_getElem? named)

theorem push (tally : Tally books pipes) (handle : Nat) (word : Word) :
    Tally (books.change handle (·.putIn [word])) (pipes.push handle word) := by
  refine tally.change fun account contents _ balances => ?_
  simp only [Account.Balances, Account.putIn, ← List.append_assoc] at balances ⊢
  rw [balances]

theorem pop (tally : Tally books pipes) (handle : Nat) :
    Tally (books.change handle (·.takeOut (pipes.pop handle).1.toList)) (pipes.pop handle).2 := by
  refine tally.change fun account contents values balances => ?_
  have split : contents.head?.toList ++ contents.tail = contents := by cases contents <;> rfl
  simp only [Pipes.pop, values, Option.bind_some, Account.Balances, Account.takeOut] at balances ⊢
  rw [List.append_assoc, split, balances]

theorem drain (tally : Tally books pipes) (handle : Nat) :
    Tally (books.change handle (·.takeOut (pipes.drain handle).1)) (pipes.drain handle).2 := by
  refine tally.change fun account contents values balances => ?_
  simp only [Pipes.drain, values, Option.getD_some, Account.Balances, Account.takeOut,
    List.append_nil] at balances ⊢
  exact balances

theorem perform (tally : Tally books pipes) (action : Action) :
    Tally (books.enter (action, (pipes.perform action).1)) (pipes.perform action).2 := by
  cases action with
  | create values => exact tally.create values
  | clone handle => exact tally.clone handle
  | push handle word | write handle word => exact tally.push handle word
  | pop handle | read handle => exact tally.pop handle
  | length handle => exact tally
  | drain handle => exact tally.drain handle

theorem performAll (tally : Tally books pipes) (actions : List Action) :
    Tally ((pipes.performAll actions).1.foldl Books.enter books) (pipes.performAll actions).2 := by
  induction actions generalizing books pipes with
  | nil => exact tally
  | cons action rest ih => exact ih (tally.perform action)

/-- The queue of a handle stays as it is when something is done to another queue. -/
theorem values?_modify (tally : Tally books pipes) (named : books.origins[handle]? = some queue)
    {other : Nat} (apart : books.origins[other]? ≠ some queue) :
    (pipes.modify other rule).values? handle = pipes.values? handle := by
  unfold modify
  rw [tally.handles_getElem?]
  split <;> rename_i found
  · rename_i place
    have elsewhere : place ≠ queue := by
      rintro rfl
      exact apart found
    have handles : pipes.handles[handle]? = some queue := by rw [tally.handles_getElem?, named]
    simp only [values?, handles, Option.bind_some, Array.getElem?_modify, if_neg elsewhere]
  · rfl

theorem exists_values? (tally : Tally books pipes) (known : queue < books.accounts.length) :
    ∃ contents, pipes.queues[queue]? = some contents :=
  ⟨_, Array.getElem?_eq_getElem (tally.count ▸ known)⟩

/-- New pipes and new handles leave the others alone. -/
theorem values?_grow (tally : Tally books pipes) (named : books.origins[handle]? = some queue)
    {more : Pipes} (handles : ∀ (index value : Nat), pipes.handles[index]? = some value →
      more.handles[index]? = some value)
    (queues : ∀ (index : Nat) (value : List Word), pipes.queues[index]? = some value →
      more.queues[index]? = some value) : more.values? handle = pipes.values? handle := by
  obtain ⟨contents, held⟩ := tally.exists_values? (tally.known queue (List.mem_of_getElem? named))
  have stays := handles handle queue (by rw [tally.handles_getElem?, named])
  rw [tally.values?_eq named, held, values?, stays, Option.bind_some, queues queue contents held]

theorem values?_perform (tally : Tally books pipes) (named : books.origins[handle]? = some queue)
    (action : Action) (apart : action.target?.bind (books.origins[·]?) ≠ some queue) :
    (pipes.perform action).2.values? handle = pipes.values? handle := by
  cases action with
  | create values =>
      exact tally.values?_grow named (fun _ _ => getElem?_push_of_eq_some)
        fun _ _ => getElem?_push_of_eq_some
  | clone other =>
      simp only [Pipes.perform, clone?]
      cases pipes.handles[other]? with
      | none => rfl
      | some place =>
          exact tally.values?_grow named (fun _ _ => getElem?_push_of_eq_some) fun _ _ held => held
  | length other => rfl
  | push other word | write other word | pop other | read other | drain other =>
      exact tally.values?_modify named apart

theorem answer_pop (tally : Tally books pipes) (named : books.origins[handle]? = some queue)
    (held : pipes.queues[queue]? = some contents) : (pipes.pop handle).1 = contents.head? := by
  rw [Pipes.pop, tally.values?_eq named, held, Option.bind_some]

theorem answer_length (tally : Tally books pipes) (named : books.origins[handle]? = some queue)
    (held : pipes.queues[queue]? = some contents) :
    (pipes.perform (.length handle)).1 = .length contents.length := by
  have inside : handle < pipes.handles.size := by
    have found := (tally.handles_getElem? handle).trans named
    exact (Array.getElem?_eq_some_iff.mp found).1
  have values := (tally.values?_eq named).trans held
  simp only [Pipes.perform, lengths, List.getElem?_map, List.getElem?_range inside,
    Option.map_some, Option.getD_some, values]

end Tally

/-- Whatever was done, what was taken out of a queue through any of its handles, and what is still
in it, is what it began with and what was put in through any of them, in that order. Through each of
its handles the same is there to be taken, nothing just if there is nothing in it, and the same
length is told; and what is done to another queue changes nothing. -/
theorem pipes_are_first_in_first_out (actions : List Action) :
    let (history, pipes) := ({} : Pipes).performAll actions
    let books := Books.ofHistory history
    books.origins.length = pipes.handles.size ∧
    (∀ queue ∈ books.origins, queue < books.accounts.length) ∧
    ∀ queue account, books.accounts[queue]? = some account →
      ∃ contents, account.taken ++ contents = account.initial ++ account.put ∧
        ∀ handle, books.origins[handle]? = some queue →
          pipes.values? handle = some contents ∧
          ((pipes.perform (.pop handle)).1 = .taken none ↔ contents = []) ∧
          ((pipes.perform (.read handle)).1 = .taken none ↔ contents = []) ∧
          (pipes.perform (.length handle)).1 = .length contents.length ∧
          ∀ action, action.target?.bind (books.origins[·]?) ≠ some queue →
            (pipes.perform action).2.values? handle = some contents := by
  have tally := tally_empty.performAll actions
  refine ⟨?_, tally.known, fun queue account entered => ?_⟩
  · rw [← Array.length_toList, tally.origins]
    rfl
  · have known := (List.getElem?_eq_some_iff.mp entered).1
    obtain ⟨contents, held⟩ := tally.exists_values? known
    refine ⟨contents, tally.balances queue account contents entered held, fun handle named => ?_⟩
    have values := (tally.values?_eq named).trans held
    have popped : Answer.taken (pop (performAll {} actions).2 handle).1 = .taken none ↔
        contents = [] := by
      rw [tally.answer_pop named held, Answer.taken.injEq, List.head?_eq_none_iff]
    refine ⟨values, popped, popped, tally.answer_length named held, fun action apart => ?_⟩
    rw [tally.values?_perform named action apart, values]

/-- A clone of a clone is written to, and read from by way of the first handle; another pipe is
left alone. -/
theorem late_clone_shares_queue :
    let (history, pipes) := ({} : Pipes).performAll
      [.create [5], .create [], .clone 0, .clone 2, .write 3 7, .read 0, .push 2 9]
    (Books.ofHistory history).accounts[0]? = some { initial := [5], put := [7, 9], taken := [5] } ∧
      pipes.values? 3 = some [7, 9] ∧ (pipes.perform (.drain 1)).2.values? 3 = some [7, 9] := by
  obtain ⟨_, _, balanced⟩ := pipes_are_first_in_first_out
    [.create [5], .create [], .clone 0, .clone 2, .write 3 7, .read 0, .push 2 9]
  obtain ⟨contents, balances, through⟩ := balanced 0 _ rfl
  obtain ⟨values, _, _, _, apart⟩ := through 3 rfl
  have left : contents = [7, 9] := (List.cons.inj balances).2
  subst left
  exact ⟨rfl, values, apart (.drain 1) (by decide)⟩

end Intcode.Pipes
