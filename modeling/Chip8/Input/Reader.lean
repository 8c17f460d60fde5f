import Chip8.Keymap

/-!
# The reader of typed characters

A terminal is read beside the emulator, character by character: the reader
folds a character to lower case, looks up what it stands for, and puts that
into a queue, from which it is taken when the emulator polls.

* A character that stands for nothing, and one for which the queue has no room,
  is lost.
* Escape and control-C put a marker into the queue, after which the reader is
  done. The marker is never lost: the reader waits until there is room.
* A character that cannot be folded ends the reader.
* Asked to end, the reader still takes in one more character, since it is
  already waiting for it.

What characters stand for may be anything; nothing here depends on it.
-/

namespace Chip8.Input

/-- What a reader is at. -/
inductive ReaderStatus
  /-- It waits for a character. -/
  | listening
  /-- It waits for room to put the marker. -/
  | holding
  | done
  deriving DecidableEq, Repr

/-- A reader with its queue, oldest first, where nothing stands for the marker. -/
structure Reader (α : Type) where
  /-- Room in the queue, without limit if zero. -/
  capacity : Nat
  queue : List (Option α)
  status : ReaderStatus
  /-- Whether it was asked to end. -/
  asked : Bool
  deriving DecidableEq

/-- The characters that ask to quit, escape and control-C. -/
def quitCharacters : List Int := [27, 3]

namespace Reader

variable {α : Type}

/-- A reader of an empty queue. -/
def start (capacity : Nat) : Reader α := ⟨capacity, [], .listening, false⟩

/-- Whether there is room in the queue. -/
def hasRoom (r : Reader α) : Bool :=
  r.capacity == 0 || r.queue.length < r.capacity

/-- The marker put into the queue, or held until there is room. -/
def putMarker (r : Reader α) : Reader α :=
  if r.hasRoom then { r with queue := r.queue ++ [none], status := .done }
  else { r with status := .holding }

/-- What a character stands for put into the queue, if there is room. -/
def put (r : Reader α) (a : α) : Reader α :=
  if r.hasRoom then { r with queue := r.queue ++ [some a] } else r

/-- What a listening reader does with a character, and what went wrong. -/
def handle (lookup : Int → Option α) (r : Reader α) (char : Int) :
    Reader α × Option FoldError :=
  if char < 0 then (r, none)
  else if quitCharacters.contains char then (r.putMarker, none)
  else
    match foldCode char with
    | .error e => ({ r with status := .done }, some e)
    | .ok code =>
      match lookup code with
      | some a => (r.put a, none)
      | none => (r, none)

/-- The reader done if it was asked to. -/
def settle (r : Reader α) : Reader α :=
  if r.asked ∧ r.status = .listening then { r with status := .done } else r

/-- A character is typed. -/
def read (lookup : Int → Option α) (r : Reader α) (char : Int) : Reader α × Option FoldError :=
  if r.status = .listening then
    let (after, problem) := r.handle lookup char
    (after.settle, problem)
  else (r, none)

/-- Characters are typed in turn; those left when the reader is done are
    returned with what went wrong. -/
def readAll (lookup : Int → Option α) (r : Reader α) :
    List Int → Reader α × List Int × Option FoldError
  | [] => (r, [], none)
  | char :: rest =>
    if r.status = .listening then
      match r.read lookup char with
      | (after, none) => after.readAll lookup rest
      | (after, some e) => (after, rest, some e)
    else (r, char :: rest, none)

/-- Asks the reader to end. -/
def ask (r : Reader α) : Reader α := { r with asked := true }

/-- Takes the oldest item; a held marker gets the room. -/
def take? (r : Reader α) : Option (Option α × Reader α) :=
  match r.queue with
  | [] => none
  | item :: rest =>
    let left := { r with queue := rest }
    some (item, if r.status = .holding then left.putMarker else left)

/-- Takes items up to the marker, `fuel` of them at most: those before it, and
    whether it was there. -/
def drain : Nat → Reader α → List α × Bool × Reader α
  | 0, r => ([], false, r)
  | fuel + 1, r =>
    match r.take? with
    | none => ([], false, r)
    | some (none, left) => ([], true, left)
    | some (some a, left) =>
      let (others, marked, last) := drain fuel left
      (a :: others, marked, last)

/-- Takes all items up to the marker. A held marker adds one to the queue. -/
def takeAll (r : Reader α) : List α × Bool × Reader α :=
  drain (r.queue.length + 1) r

end Reader

end Chip8.Input
