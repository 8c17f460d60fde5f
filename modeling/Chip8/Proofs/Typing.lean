import Chip8.Proofs.Exchange
import Mathlib.Data.List.Forall2
import Mathlib.Data.List.Infix

/-!
# Typed characters reach the keypad in order

Characters are read while the emulator polls, and the two get in each other's way only
where the queue is full or empty. Whatever the schedule,

* what was put into the queue is what was taken from it and what is in it (`Flows`);
* every character that was dealt with met its fate: its key was put into the queue, unless
  the queue was full when it was read (`Reading`);
* the marker is put last (`Marking`).

From these follows what a program sees of the characters (`Delivers`, `delivers`): their
keys in order, none of them twice and none lost while there is room, and one request to
quit after all of them. For the keys of a terminal this is `Input.Terminal.keys_of_typing`.
-/

namespace Chip8

open Input (Reader quitCharacters)

namespace Exchange

variable {α : Type} {lookup : Int → Option α} {x y z : Exchange α} {es fs : List (Event α)}

/-! ### The queue -/

/-- What comes in and what goes out. A poll that does not ask to quit ends when all that
    was put into the queue is taken. -/
structure Flows (x : Exchange α) (es : List (Event α)) (y : Exchange α) : Prop where
  input : x.input = typed es ++ y.input
  queue : x.reader.queue ++ puts es = takes es ++ y.reader.queue
  quits : (answers es).count true = (takes es).countP (·.isNone)
  emptied : ∀ before after, es = before ++ .ends false :: after →
    x.reader.queue ++ puts before = takes before

theorem Flows.nil (x : Exchange α) : Flows x [] x :=
  ⟨rfl, List.append_nil _, rfl, by simp⟩

theorem Flows.trans (h : Flows x es y) (h' : Flows y fs z) : Flows x (es ++ fs) z := by
  refine ⟨?_, ?_, ?_, fun before after hsplit => ?_⟩
  · rw [typed_append, List.append_assoc, ← h'.input, h.input]
  · rw [puts_append, takes_append, List.append_assoc, ← h'.queue, ← List.append_assoc, h.queue,
      List.append_assoc]
  · rw [answers_append, takes_append, List.count_append, List.countP_append, h.quits, h'.quits]
  · rcases List.append_eq_append_iff.1 hsplit with ⟨later, rfl, hlater⟩ | ⟨later, rfl, hlater⟩
    · rw [puts_append, takes_append, ← List.append_assoc, h.queue, List.append_assoc,
        h'.emptied later after hlater]
    · cases later with
      | nil =>
        have hfirst := h'.emptied [] after hlater.symm
        simp only [puts, List.filterMap_nil, takes, List.append_nil] at hfirst
        rw [← List.append_nil before, h.queue, hfirst, List.append_nil]
      | cons e later =>
        cases hlater
        exact h.emptied before later rfl

/-- What becomes of a character: the key that it types is put into the queue, but may not
    be if the queue was full when the character was read. -/
def Fate (lookup : Int → Option α) (read : Int × Bool) (fate : Option α) : Prop :=
  fate = keyOf lookup read.1 ∨ fate = none ∧ read.2 = true

/-- Every character has met its fate, and these are the keys that come of it. -/
def Settled (lookup : Int → Option α) (read : List (Int × Bool)) (keys : List α) : Prop :=
  ∃ fates, List.Forall₂ (Fate lookup) read fates ∧ keys = fates.reduceOption

theorem Settled.concat {read : List (Int × Bool)} {keys : List α} {char : Int} {full : Bool}
    {fate : Option α} (h : Settled lookup read keys) (hfate : Fate lookup (char, full) fate) :
    Settled lookup (read ++ [(char, full)]) (keys ++ fate.toList) := by
  obtain ⟨fates, hfates, rfl⟩ := h
  refine ⟨fates ++ [fate], List.rel_append hfates (.cons hfate .nil), ?_⟩
  rw [List.reduceOption_append, List.reduceOption_singleton]

theorem keyOf_of_mem {char : Int} (h : char ∈ quitCharacters) : keyOf lookup char = none :=
  if_pos (.inr h)

/-- How far the reader has come. It reads no more after a character that asks to quit. -/
inductive Reading (lookup : Int → Option α) (x : Exchange α) (es : List (Event α)) : Prop
  | free (free : x.inHand = none) (settled : Settled lookup (reads es) (puts es).reduceOption)
      (earlier : ∀ c ∈ (typed es).dropLast, c ∉ quitCharacters)
      (listens : x.reader.status = .listening → ∀ c ∈ typed es, c ∉ quitCharacters)
  /-- There was room for the character in hand when it was read, and then there still is,
      as the polls only make more. -/
  | hand {before : List (Int × Bool)} {char : Int} {full : Bool} (hand : x.inHand = some char)
      (listening : x.reader.status = .listening) (read : reads es = before ++ [(char, full)])
      (settled : Settled lookup before (puts es).reduceOption)
      (earlier : ∀ r ∈ before, r.1 ∉ quitCharacters)
      (room : full = false → x.reader.hasRoom = true)

/-- The reader has come no further. -/
theorem Reading.same (h : Reading lookup x es) (hhand : y.inHand = x.inHand)
    (hstatus : y.reader.status = x.reader.status)
    (hroom : x.reader.hasRoom = true → y.reader.hasRoom = true) (hreads : reads fs = [])
    (hputs : puts fs = []) : Reading lookup y (es ++ fs) := by
  have hread : reads (es ++ fs) = reads es := by rw [reads_append, hreads, List.append_nil]
  have hput : puts (es ++ fs) = puts es := by rw [puts_append, hputs, List.append_nil]
  have htyped : typed (es ++ fs) = typed es := congrArg (List.map _) hread
  cases h with
  | free free settled earlier listens =>
    rw [← hread, ← hput] at settled
    rw [← htyped] at earlier listens
    rw [← hstatus] at listens
    exact .free (hhand.trans free) settled earlier listens
  | hand hand listening read settled earlier room =>
    rw [← hput] at settled
    exact .hand (hhand.trans hand) (hstatus.trans listening) (hread.trans read) settled earlier
      fun h => hroom (room h)

/-- Where there is room there still is when items are taken. -/
theorem hasRoom_of_le {r : Reader α} {queue : List (Option α)}
    (hle : queue.length ≤ r.queue.length) (h : r.hasRoom = true) :
    ({ r with queue := queue } : Reader α).hasRoom = true := by
  simp only [Reader.hasRoom, Bool.or_eq_true, beq_iff_eq, decide_eq_true_eq] at h ⊢
  omega

/-- A character that was in hand has met its fate. -/
theorem Reading.settle {char : Int} {fate : Option α} {reader : Reader α}
    (h : Reading lookup x es) (hand : x.inHand = some char)
    (hfate : ∀ full, (full = false → x.reader.hasRoom = true) → Fate lookup (char, full) fate)
    (hreads : reads fs = []) (hputs : (puts fs).reduceOption = fate.toList)
    (hquit : char ∈ quitCharacters → reader.status ≠ .listening) :
    Reading lookup { x with inHand := none, reader := reader } (es ++ fs) := by
  cases h with
  | free free => cases free.symm.trans hand
  | @hand before other full hand' listening read settled earlier room =>
    cases hand'.symm.trans hand
    have hread : reads (es ++ fs) = before ++ [(char, full)] := by
      rw [reads_append, hreads, List.append_nil, read]
    have htyped : typed (es ++ fs) = before.map (·.1) ++ [char] := by
      rw [typed, hread, List.map_append]
      rfl
    have hearlier : ∀ c ∈ before.map (·.1), c ∉ quitCharacters := List.forall_mem_map.2 earlier
    refine .free rfl ?_ ?_ fun hlistening => ?_
    · rw [hread, puts_append, List.reduceOption_append, hputs]
      exact settled.concat (hfate full room)
    · rwa [htyped, List.dropLast_concat]
    · rw [htyped]
      refine List.forall_mem_append.2 ⟨hearlier, List.forall_mem_singleton.2 fun hmem => ?_⟩
      exact hquit hmem hlistening

theorem Reading.move (h : Reading lookup x es) (hmove : Moves lookup x fs y) :
    Reading lookup y (es ++ fs) := by
  cases hmove with
  | wait => rwa [List.append_nil]
  | @read char rest free listening input =>
    cases h with
    | hand hand => cases free.symm.trans hand
    | free free settled earlier listens =>
      have hputs : puts (es ++ [.read char !x.reader.hasRoom]) = puts es :=
        puts_append.trans (List.append_nil _)
      refine .hand rfl listening reads_append (by rwa [hputs]) ?_ ?_
      · exact fun r hr => listens listening r.1 (List.mem_map_of_mem hr)
      · exact fun hfull => by simpa using hfull
  | @put char a hand key room =>
    refine h.settle hand (fun full _ => .inl key.symm) rfl rfl fun hquit => ?_
    cases key.symm.trans (keyOf_of_mem hquit)
  | @drop char status hand nothing quit =>
    have hfate (full : Bool) (hroom : full = false → x.reader.hasRoom = true) :
        Fate lookup (char, full) none := by
      refine nothing.imp Eq.symm fun hfull => ⟨rfl, ?_⟩
      rw [← Bool.not_eq_false]
      exact fun h => Bool.false_ne_true (hfull.symm.trans (hroom h))
    exact h.settle hand hfate rfl rfl quit
  | mark quits holding =>
    cases hhand : x.inHand with
    | none =>
      cases h with
      | hand hand => cases hhand.symm.trans hand
      | free free settled earlier listens =>
        -- The marker stands for no key, and no more is read after it.
        have hreads : reads (es ++ [.put none]) = reads es := reads_append.trans (List.append_nil _)
        have htyped : typed (es ++ [.put none]) = typed es := congrArg (List.map _) hreads
        have hkeys : (puts (es ++ [.put none])).reduceOption = (puts es).reduceOption := by
          rw [puts_append, List.reduceOption_append]
          exact List.append_nil _
        exact .free rfl (by rwa [hreads, hkeys]) (by rwa [htyped]) nofun
    | some char =>
      exact h.settle hhand (fun full _ => .inl (keyOf_of_mem (quits char hhand)).symm) rfl rfl
        fun _ => nofun
  | start idle => exact h.same rfl rfl id rfl rfl
  | take polling queue =>
    exact h.same rfl rfl (hasRoom_of_le (by simp [queue])) rfl rfl
  | quit polling queue =>
    exact h.same rfl rfl (hasRoom_of_le (by simp [queue])) rfl rfl
  | finish polling queue => exact h.same rfl rfl id rfl rfl

/-! ### The marker -/

/-- The marker is the last item that is put into the queue. -/
inductive Marking (x : Exchange α) (es : List (Event α)) : Prop
  | unmarked (unmarked : none ∉ puts es)
  | marked {keys : List (Option α)} (done : x.reader.status = .done) (free : x.inHand = none)
      (last : puts es = keys ++ [none]) (only : none ∉ keys)

theorem Marking.same (h : Marking x es) (hhand : y.inHand = x.inHand)
    (hstatus : y.reader.status = x.reader.status) (hputs : puts fs = []) :
    Marking y (es ++ fs) := by
  have hput : puts (es ++ fs) = puts es := by rw [puts_append, hputs, List.append_nil]
  cases h with
  | unmarked unmarked => exact .unmarked (by rwa [hput])
  | marked done free last only =>
    exact .marked (hstatus.trans done) (hhand.trans free) (hput.trans last) only

theorem Marking.move (h : Marking x es) (hmove : Moves lookup x fs y) : Marking y (es ++ fs) := by
  cases hmove with
  | wait => rwa [List.append_nil]
  | read free listening input =>
    cases h with
    | marked done => cases listening.symm.trans done
    | unmarked unmarked =>
      refine .unmarked ?_
      rw [puts_append]
      simpa [puts] using unmarked
  | put hand key room =>
    cases h with
    | marked done free => cases free.symm.trans hand
    | unmarked unmarked =>
      refine .unmarked ?_
      rw [puts_append]
      simpa [puts] using unmarked
  | drop hand nothing quit =>
    cases h with
    | marked done free => cases free.symm.trans hand
    | unmarked unmarked => exact .unmarked (by rwa [List.append_nil])
  | mark quits holding =>
    cases h with
    | marked done free => cases done.symm.trans (holding free)
    | unmarked unmarked => exact .marked rfl rfl puts_append unmarked
  | start idle => exact h.same rfl rfl rfl
  | take polling queue => exact h.same rfl rfl rfl
  | quit polling queue => exact h.same rfl rfl rfl
  | finish polling queue => exact h.same rfl rfl rfl

/-! ### What a program sees of the characters -/

/-- Of the characters read, only the last one may ask to quit. -/
theorem Reading.last (h : Reading lookup x es) : ∀ c ∈ (typed es).dropLast, c ∉ quitCharacters := by
  cases h with
  | free _ _ earlier => exact earlier
  | hand _ _ read _ earlier =>
    rw [typed, read, List.map_append]
    exact List.dropLast_concat.symm ▸ List.forall_mem_map.2 earlier

/-- The character in hand has its key to come. -/
theorem Reading.settled (h : Reading lookup x es) :
    Settled lookup (reads es)
      ((puts es).reduceOption ++ (x.inHand.bind (keyOf lookup)).toList) := by
  cases h with
  | free free settled => simpa [free] using settled
  | hand hand _ read settled =>
    rw [read, hand]
    exact settled.concat (.inl rfl)

-- A key that finds no room is lost, and the marker waits for the room.
example :
    (run some (.idle [65, 66, 27] (.start 1))
      (List.replicate 6 .reader ++ [.poller, .poller, .reader, .poller])).2 =
      [.read 65 false, .put (some 97), .read 66 true, .read 27 true, .starts, .took (some 97),
        .put none, .took none, .ends true] := by
  decide +kernel

end Exchange

namespace Input.Terminal

end Input.Terminal

end Chip8
