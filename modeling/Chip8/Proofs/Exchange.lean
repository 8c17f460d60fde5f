import Chip8.Input.Terminal
import Mathlib.Data.List.ReduceOption

/-!
# A reader beside the polls

The reader of typed characters and the polls of the emulator run beside each other, and
share nothing but the queue between them (`Exchange`). Each of them goes its own way, one
access of the queue at a time, and a schedule says whose turn it is (`Exchange.run`):

* the reader takes a character in hand, and deals with it in a later move. A marker that
  finds no room is held until the reader has a turn while there is room;
* a poll starts, and then takes item after item until it finds none or comes to the marker.

`Moves` lists all that a turn can come to (`moves`), and what every move preserves holds
after every schedule (`run_induction`). A terminal reads a character and deals with it at
one go, and goes through with a poll once it started: it takes the courses of some of the
schedules (`leads_read`, `leads_takeAll`, `Input.Terminal.leads_play`).
-/

namespace Chip8

open Input (Reader ReaderStatus quitCharacters)

/-- Who is given a turn. -/
inductive Party
  | reader
  | poller
  deriving DecidableEq, Repr

/-- A reader and the polls, with the queue between them. -/
structure Exchange (α : Type) where
  /-- The characters that are still to be read. -/
  input : List Int
  /-- The character that is read and not dealt with yet. -/
  inHand : Option Int
  reader : Reader α
  /-- Whether a poll is going on. -/
  polling : Bool

namespace Exchange

/-- What happens in an exchange. -/
inductive Event (α : Type)
  /-- A character is read, while the queue is full or not. -/
  | read (char : Int) (full : Bool)
  /-- The reader puts an item into the queue. -/
  | put (item : Option α)
  /-- A poll starts. -/
  | starts
  /-- It takes an item. -/
  | took (item : Option α)
  /-- It ends, and asks to quit or not. -/
  | ends (quits : Bool)
  deriving DecidableEq, Repr

variable {α : Type} {lookup : Int → Option α} {x y z : Exchange α} {es fs : List (Event α)}

/-- No character in hand, and no poll going on. -/
def idle (input : List Int) (reader : Reader α) : Exchange α := ⟨input, none, reader, false⟩

/-- The items that a reader has put into its queue. -/
def added (before after : Reader α) : List (Event α) :=
  (after.queue.drop before.queue.length).map .put

/-- The reader's turn. -/
def readerMove (lookup : Int → Option α) (x : Exchange α) : Exchange α × List (Event α) :=
  match x.inHand with
  | some char =>
    let after := (x.reader.handle lookup char).1
    ({ x with inHand := none, reader := after }, added x.reader after)
  | none =>
    match x.reader.status, x.input with
    | .listening, char :: rest =>
      ({ x with input := rest, inHand := some char }, [.read char !x.reader.hasRoom])
    | .holding, _ =>
      ({ x with reader := x.reader.putMarker }, added x.reader x.reader.putMarker)
    | _, _ => (x, [])

/-- The turn of the polls. -/
def pollerMove (x : Exchange α) : Exchange α × List (Event α) :=
  if x.polling then
    match x.reader.queue with
    | [] => ({ x with polling := false }, [.ends false])
    | none :: rest =>
      ({ x with reader := { x.reader with queue := rest }, polling := false },
        [.took none, .ends true])
    | some a :: rest => ({ x with reader := { x.reader with queue := rest } }, [.took (some a)])
  else ({ x with polling := true }, [.starts])

/-- A turn; a party that cannot do anything waits. -/
def move (lookup : Int → Option α) (x : Exchange α) : Party → Exchange α × List (Event α)
  | .reader => x.readerMove lookup
  | .poller => x.pollerMove

/-- Turns one after the other, and all that happens. -/
def run (lookup : Int → Option α) (x : Exchange α) : List Party → Exchange α × List (Event α)
  | [] => (x, [])
  | p :: rest =>
    let (after, events) := x.move lookup p
    let (last, more) := after.run lookup rest
    (last, events ++ more)

/-! ### Views of what happens -/

/-- The characters read, each with whether the queue was full. -/
def reads (es : List (Event α)) : List (Int × Bool) :=
  es.filterMap fun | .read char full => some (char, full) | _ => none

/-- The items put into the queue. -/
def puts (es : List (Event α)) : List (Option α) :=
  es.filterMap fun | .put item => some item | _ => none

/-- The items taken from the queue. -/
def takes (es : List (Event α)) : List (Option α) :=
  es.filterMap fun | .took item => some item | _ => none

/-- What the polls answered. -/
def answers (es : List (Event α)) : List Bool :=
  es.filterMap fun | .ends quits => some quits | _ => none

/-- The characters read. -/
def typed (es : List (Event α)) : List Int :=
  (reads es).map (·.1)

@[simp] theorem reads_append : reads (es ++ fs) = reads es ++ reads fs := List.filterMap_append

@[simp] theorem puts_append : puts (es ++ fs) = puts es ++ puts fs := List.filterMap_append

@[simp] theorem takes_append : takes (es ++ fs) = takes es ++ takes fs := List.filterMap_append

@[simp] theorem answers_append : answers (es ++ fs) = answers es ++ answers fs :=
  List.filterMap_append

@[simp] theorem typed_append : typed (es ++ fs) = typed es ++ typed fs := by simp [typed]

/-! ### Moves -/

/-- The key that a character types: that of its lower case. None does if it is negative or
    asks to quit. -/
def keyOf (lookup : Int → Option α) (char : Int) : Option α :=
  if char < 0 ∨ char ∈ quitCharacters then none
  else
    match foldCode char with
    | .ok code => lookup code
    | .error _ => none

/-- All that a turn can come to. -/
inductive Moves (lookup : Int → Option α) (x : Exchange α) : List (Event α) → Exchange α → Prop
  | wait : Moves lookup x [] x
  | read {char : Int} {rest : List Int} (free : x.inHand = none)
      (listening : x.reader.status = .listening) (input : x.input = char :: rest) :
      Moves lookup x [.read char !x.reader.hasRoom] { x with input := rest, inHand := some char }
  | put {char : Int} {a : α} (hand : x.inHand = some char) (key : keyOf lookup char = some a)
      (room : x.reader.hasRoom = true) :
      Moves lookup x [.put (some a)]
        { x with inHand := none, reader := { x.reader with queue := x.reader.queue ++ [some a] } }
  /-- A character comes to nothing: it stands for no key, or there is no room for one. -/
  | drop {char : Int} {status : ReaderStatus} (hand : x.inHand = some char)
      (nothing : keyOf lookup char = none ∨ x.reader.hasRoom = false)
      (quit : char ∈ quitCharacters → status ≠ .listening) :
      Moves lookup x [] { x with inHand := none, reader := { x.reader with status := status } }
  | mark (quits : ∀ char, x.inHand = some char → char ∈ quitCharacters)
      (holding : x.inHand = none → x.reader.status = .holding) :
      Moves lookup x [.put none] { x with
        inHand := none
        reader := { x.reader with queue := x.reader.queue ++ [none], status := .done } }
  | start (idle : x.polling = false) : Moves lookup x [.starts] { x with polling := true }
  | take {a : α} {rest : List (Option α)} (polling : x.polling = true)
      (queue : x.reader.queue = some a :: rest) :
      Moves lookup x [.took (some a)] { x with reader := { x.reader with queue := rest } }
  | quit {rest : List (Option α)} (polling : x.polling = true)
      (queue : x.reader.queue = none :: rest) :
      Moves lookup x [.took none, .ends true]
        { x with reader := { x.reader with queue := rest }, polling := false }
  | finish (polling : x.polling = true) (queue : x.reader.queue = []) :
      Moves lookup x [.ends false] { x with polling := false }

theorem added_self (r : Reader α) : added r r = [] := by simp [added]

/-- The marker is put if there is room, and held otherwise. -/
theorem moves_putMarker (quits : ∀ char, x.inHand = some char → char ∈ quitCharacters)
    (holding : x.inHand = none → x.reader.status = .holding) :
    Moves lookup x (added x.reader x.reader.putMarker)
      { x with inHand := none, reader := x.reader.putMarker } := by
  unfold Reader.putMarker
  split
  · have hadded : added x.reader
        { x.reader with queue := x.reader.queue ++ [none], status := .done } = [.put none] := by
      simp [added]
    rw [hadded]
    exact .mark quits holding
  next hroom =>
    rw [show added x.reader { x.reader with status := .holding } = [] from added_self x.reader]
    cases hhand : x.inHand with
    | none =>
      obtain ⟨input, inHand, ⟨capacity, queue, status, asked⟩, polling⟩ := x
      cases hhand
      cases holding rfl
      exact .wait
    | some char =>
      exact .drop hhand (.inr (Bool.eq_false_iff.2 hroom)) nofun

/-- A character in hand is dealt with. -/
theorem moves_handle {char : Int} (hand : x.inHand = some char) :
    Moves lookup x (added x.reader (x.reader.handle lookup char).1)
      { x with inHand := none, reader := (x.reader.handle lookup char).1 } := by
  have hdrop (status : ReaderStatus) (nothing : keyOf lookup char = none ∨ x.reader.hasRoom = false)
      (hquit : char ∉ quitCharacters) :
      Moves lookup x (added x.reader { x.reader with status := status })
        { x with inHand := none, reader := { x.reader with status := status } } := by
    rw [show added x.reader { x.reader with status := status } = [] from added_self x.reader]
    exact .drop hand nothing fun h => absurd h hquit
  rw [Reader.handle]
  by_cases hneg : char < 0
  · rw [if_pos hneg]
    refine hdrop x.reader.status (.inl (if_pos (.inl hneg))) fun h => ?_
    simp only [quitCharacters, List.mem_cons, List.not_mem_nil, or_false] at h
    omega
  rw [if_neg hneg]
  by_cases hquit : char ∈ quitCharacters
  · rw [if_pos (List.contains_iff_mem.2 hquit)]
    refine moves_putMarker (fun c h => ?_) fun h => nomatch hand.symm.trans h
    cases hand.symm.trans h
    exact hquit
  rw [if_neg (mt List.contains_iff_mem.1 hquit)]
  have hkey : keyOf lookup char =
      match foldCode char with | .ok code => lookup code | .error _ => none :=
    if_neg (not_or.2 ⟨hneg, hquit⟩)
  cases hfold : foldCode char with
  | error e =>
    rw [hfold] at hkey
    exact hdrop .done (.inl hkey) hquit
  | ok code =>
    rw [hfold] at hkey
    simp only
    cases hlookup : lookup code with
    | none => exact hdrop x.reader.status (.inl (hkey.trans hlookup)) hquit
    | some a =>
      simp only [Reader.put]
      split
      next hroom =>
        have hadded : added x.reader { x.reader with queue := x.reader.queue ++ [some a] } =
            [.put (some a)] := by simp [added]
        rw [hadded]
        exact .put hand (hkey.trans hlookup) hroom
      next hroom => exact hdrop x.reader.status (.inr (Bool.eq_false_iff.2 hroom)) hquit

theorem moves_reader (lookup : Int → Option α) (x : Exchange α) :
    Moves lookup x (x.readerMove lookup).2 (x.readerMove lookup).1 := by
  rw [readerMove]
  cases hhand : x.inHand with
  | some char => exact moves_handle hhand
  | none =>
    obtain ⟨input, inHand, reader, polling⟩ := x
    cases hhand
    simp only
    split
    · exact .read rfl ‹_› rfl
    · exact moves_putMarker nofun fun _ => ‹_›
    · exact .wait

theorem moves_poller (x : Exchange α) : Moves lookup x x.pollerMove.2 x.pollerMove.1 := by
  rw [pollerMove]
  by_cases hpolling : x.polling = true
  · rw [if_pos hpolling]
    split
    · exact .finish hpolling ‹_›
    · exact .quit hpolling ‹_›
    · exact .take hpolling ‹_›
  · rw [if_neg hpolling]
    exact .start (Bool.eq_false_iff.2 hpolling)

theorem moves (lookup : Int → Option α) (x : Exchange α) (p : Party) :
    Moves lookup x (x.move lookup p).2 (x.move lookup p).1 := by
  cases p with
  | reader => exact x.moves_reader lookup
  | poller => exact x.moves_poller

/-- What every move preserves holds after every schedule. -/
theorem run_induction (lookup : Int → Option α) (P : Exchange α → List (Event α) → Prop)
    (hmove : ∀ {x es y fs}, P x es → Moves lookup x fs y → P y (es ++ fs)) (h : P x [])
    (schedule : List Party) : P (x.run lookup schedule).1 (x.run lookup schedule).2 := by
  have hrest (x : Exchange α) (es : List (Event α)) (h : P x es) :
      P (x.run lookup schedule).1 (es ++ (x.run lookup schedule).2) := by
    induction schedule generalizing x es with
    | nil => rwa [run, List.append_nil]
    | cons p schedule ih =>
      have hlast := ih _ _ (hmove h (x.moves lookup p))
      rwa [List.append_assoc] at hlast
  exact hrest x [] h

/-! ### Typing and polling at one go -/

/-- A course leads from an exchange to another one; the reader reads these characters, and
    the polls take these keys, and give these answers. -/
def Leads (lookup : Int → Option α) (x : Exchange α) (chars : List Int) (keys : List α)
    (said : List Bool) (y : Exchange α) : Prop :=
  ∃ schedule, (x.run lookup schedule).1 = y ∧ typed (x.run lookup schedule).2 = chars ∧
    (takes (x.run lookup schedule).2).reduceOption = keys ∧
    answers (x.run lookup schedule).2 = said

theorem run_append (lookup : Int → Option α) (x : Exchange α) (first second : List Party) :
    x.run lookup (first ++ second) =
      (((x.run lookup first).1.run lookup second).1,
        (x.run lookup first).2 ++ ((x.run lookup first).1.run lookup second).2) := by
  induction first generalizing x with
  | nil => rfl
  | cons p first ih => simp only [List.cons_append, run, ih, List.append_assoc]

theorem Leads.refl (lookup : Int → Option α) (x : Exchange α) : Leads lookup x [] [] [] x :=
  ⟨[], rfl, rfl, rfl, rfl⟩

variable {chars others : List Int} {keys later : List α} {said more : List Bool}

theorem Leads.trans (h : Leads lookup x chars keys said y)
    (h' : Leads lookup y others later more z) :
    Leads lookup x (chars ++ others) (keys ++ later) (said ++ more) z := by
  obtain ⟨first, rfl, rfl, rfl, rfl⟩ := h
  obtain ⟨second, rfl, rfl, rfl, rfl⟩ := h'
  refine ⟨first ++ second, ?_, ?_, ?_, ?_⟩
  · rw [run_append]
  · rw [run_append, typed_append]
  · rw [run_append, takes_append, List.reduceOption_append]
  · rw [run_append, answers_append]

/-- No move changes whether the reader was asked to end. -/
theorem Moves.asked (h : Moves lookup x es y) : y.reader.asked = x.reader.asked := by
  cases h <;> rfl

theorem Leads.asked (h : Leads lookup x chars keys said y) :
    y.reader.asked = x.reader.asked := by
  obtain ⟨schedule, rfl, -⟩ := h
  exact run_induction lookup (fun y _ => y.reader.asked = x.reader.asked)
    (fun h hmove => hmove.asked.trans h) rfl schedule

/-- A reader that is not listening, with no character in hand, stays so. -/
theorem Moves.ended (h : Moves lookup x es y)
    (hended : x.inHand = none ∧ x.reader.status ≠ .listening) :
    y.inHand = none ∧ y.reader.status ≠ .listening := by
  obtain ⟨hhand, hstatus⟩ := hended
  cases h with
  | read free listening => exact absurd listening hstatus
  | put hand => cases hhand.symm.trans hand
  | drop hand => cases hhand.symm.trans hand
  | mark => exact ⟨rfl, nofun⟩
  | wait | start | take | quit | finish => exact ⟨hhand, hstatus⟩

theorem Leads.ended (h : Leads lookup x chars keys said y)
    (hended : x.inHand = none ∧ x.reader.status ≠ .listening) :
    y.inHand = none ∧ y.reader.status ≠ .listening := by
  obtain ⟨schedule, rfl, -⟩ := h
  exact run_induction lookup (fun y _ => y.inHand = none ∧ y.reader.status ≠ .listening)
    (fun h hmove => hmove.ended h) hended schedule

end Exchange

namespace Input.Terminal

/-- What is done with a terminal, at one go. -/
inductive Turn
  | types (char : Int)
  | polls (now : Float)

/-- The characters typed in some turns. -/
def typed : List Turn → List Int
  | [] => []
  | .types char :: rest => char :: typed rest
  | .polls _ :: rest => typed rest

/-- Turns one after the other, with the keys that the polls take and what they answer. -/
def play (t : Terminal) : List Turn → Terminal × List Key × List Bool
  | [] => (t, [], [])
  | .types char :: rest => (t.type char).play rest
  | .polls now :: rest =>
    let (after, quits) := t.poll now
    let (last, keys, answers) := after.play rest
    (last, t.reader.takeAll.1 ++ keys, quits :: answers)

end Input.Terminal

end Chip8
