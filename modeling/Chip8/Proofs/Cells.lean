import Chip8.Proofs.Checks

/-!
# Memory as a row of bytes

The host stores bytes by address, by block, by an address that wraps round, or
clears all cells. A request may be refused, and then it stores nothing; otherwise
it stores the bytes it names, each in its own cell, and nothing else. So whatever
is asked of a memory, a cell holds what was stored there last.

* `Request`, `answer`: what may be asked, and what comes of it;
* `Request.storedAt?`: the byte that a request stores in a cell, told without the
  memory;
* `cells_of_answer`, `storedAt?_of_answer_error`: a request that is carried out
  stores these bytes, and one that is refused has none;
* `storesBlock_of_writeBlock`: a block that is stored lies inside memory, byte by byte;
* `getElem_performAll`: the last byte stored in a cell over many requests;
* `row_of_bytes`: the same from a new memory on, read at any address.
-/

namespace Chip8.Memory

-- The zero of `NeZero`, as for the definitions.
attribute [local instance (high)] Zero.ofOfNat0

variable {size : Nat}

/-- A request to store something. -/
inductive Request
  | write (address value : Int)
  | writeBlock (address : Int) (block : List UInt8)
  | writeWrapped (address value : Int)
  | clear

/-- The memory that a request leads to, or why it is refused. -/
def answer (m : Memory size) : Request → Except MemoryError (Memory size)
  | .write address value => m.write address value
  | .writeBlock address block => m.writeBlock address block
  | .writeWrapped address value => m.writeWrapped address value
  | .clear => .ok (blank size)

/-- The memory after a request. -/
def perform (m : Memory size) (r : Request) : Memory size :=
  m.settle (m.answer r)

/-- The memory after requests in turn. -/
def performAll (m : Memory size) (rs : List Request) : Memory size :=
  rs.foldl perform m

/-- The byte that a request stores in a cell, if it stores one there. -/
def Request.storedAt? (r : Request) (c : Fin size) : Option UInt8 :=
  match r with
  | .write address value => if address = c.val then byte? value else none
  | .writeBlock address block =>
    if 0 ≤ address ∧ address + block.length ≤ size ∧ address ≤ c.val then
      block[(c.val - address).toNat]?
    else none
  | .writeWrapped address value => if address % size = c.val then byte? value else none
  | .clear => some 0

variable [NeZero size] {m after : Memory size} {r : Request} {e : MemoryError}

/-! ### Accesses that wrap round -/

theorem readWrapped_eq (m : Memory size) (address : Int) :
    m.readWrapped address = .ok (m.fetch address) :=
  dif_neg (NeZero.ne size)

theorem writeWrapped_eq (m : Memory size) (address value : Int) :
    m.writeWrapped address value =
      match byte? value with
      | some b => .ok (m.put address b)
      | none => .error .notAByte :=
  dif_neg (NeZero.ne size)

/-! ### A request -/

theorem getElem_put_getD (m : Memory size) (address : Int) (b : UInt8) (c : Fin size) :
    (m.put address b).cells[c] =
      (if address % size = c.val then some b else none).getD m.cells[c] := by
  simp only [getElem_put, cell_eq_iff]
  split <;> rfl

/-- A block inside memory is stored byte by byte. -/
theorem getElem_putAll_block {address : Int} {block : List UInt8} (m : Memory size)
    (h : 0 ≤ address ∧ address + block.length ≤ size) (c : Fin size) :
    (m.putAll address block).cells[c] =
      ((Request.writeBlock address block).storedAt? c).getD m.cells[c] := by
  obtain ⟨start, rfl⟩ := Int.eq_ofNat_of_zero_le h.1
  rw [getElem_putAll_of_le m (by omega), Request.storedAt?]
  by_cases hin : start ≤ c.val ∧ c.val < start + block.length
  · have hoffset : ((c.val : Int) - start).toNat = c.val - start := by omega
    have hlt : c.val - start < block.length := by omega
    rw [if_pos hin, if_pos (by omega), hoffset, List.getD_eq_getElem?_getD,
      List.getElem?_eq_getElem hlt]
    rfl
  · rw [if_neg hin]
    split
    · rw [List.getElem?_eq_none (by omega), Option.getD_none]
    · rfl

/-- A request that is carried out stores its bytes, and nothing else. -/
theorem cells_of_answer (h : m.answer r = .ok after) (c : Fin size) :
    after.cells[c] = (r.storedAt? c).getD m.cells[c] := by
  cases r with
  | write address value =>
    rw [answer, write_eq] at h
    split at h
    · cases hb : byte? value with
      | none => rw [hb] at h; cases h
      | some b =>
        rw [hb] at h
        cases h
        rw [getElem_put_getD, Int.emod_eq_of_lt (by omega) (by omega), Request.storedAt?, hb]
    · cases h
  | writeBlock address block =>
    by_cases hne : block = []
    · subst hne
      rw [answer, writeBlock_nil] at h
      split at h <;> cases h
      simp only [Request.storedAt?, List.getElem?_nil, ite_self, Option.getD_none]
    · by_cases hin : 0 ≤ address ∧ address + block.length ≤ size
      · rw [answer, writeBlock_eq_ok m hne hin] at h
        cases h
        exact getElem_putAll_block m hin c
      · rw [answer, writeBlock_eq_error m hne hin] at h
        cases h
  | writeWrapped address value =>
    rw [answer, writeWrapped_eq] at h
    cases hb : byte? value with
    | none => rw [hb] at h; cases h
    | some b =>
      rw [hb] at h
      cases h
      rw [getElem_put_getD, Request.storedAt?, hb]
  | clear =>
    cases h
    exact Vector.getElem_replicate _

/-- A request that is refused has no byte for any cell. -/
theorem storedAt?_of_answer_error (h : m.answer r = .error e) (c : Fin size) :
    r.storedAt? c = none := by
  have hc := c.isLt
  cases r with
  | write address value =>
    rw [answer, write_eq] at h
    rw [Request.storedAt?]
    split at h
    · cases hb : byte? value with
      | none => exact ite_self _
      | some b => rw [hb] at h; cases h
    · exact if_neg (by omega)
  | writeBlock address block =>
    rw [Request.storedAt?]
    by_cases hne : block = []
    · simp only [hne, List.getElem?_nil, ite_self]
    · refine if_neg fun hin => ?_
      rw [answer, writeBlock_eq_ok m hne ⟨hin.1, hin.2.1⟩] at h
      cases h
  | writeWrapped address value =>
    rw [answer, writeWrapped_eq] at h
    rw [Request.storedAt?]
    cases hb : byte? value with
    | none => exact ite_self _
    | some b => rw [hb] at h; cases h
  | clear => cases h

/-- A block is stored inside memory, each of its bytes in the cell as far behind the
    address, and nothing else. -/
structure StoresBlock (m : Memory size) (address : Int) (block : List UInt8)
    (after : Memory size) : Prop where
  inside : 0 ≤ address ∧ address + block.length ≤ size
  stored : ∀ (k : Nat) (hk : k < block.length) (c : Fin size), c.val = address + k →
    after.cells[c] = block[k]
  kept : ∀ c : Fin size, (∀ k < block.length, (c.val : Int) ≠ address + k) →
    after.cells[c] = m.cells[c]

theorem storesBlock_of_writeBlock {address : Int} {block : List UInt8} (hne : block ≠ [])
    (h : m.writeBlock address block = .ok after) : m.StoresBlock address block after := by
  have hcell := cells_of_answer (r := .writeBlock address block) h
  have hin : 0 ≤ address ∧ address + block.length ≤ size := by
    refine Decidable.byContradiction fun hout => ?_
    rw [writeBlock_eq_error m hne hout] at h
    cases h
  refine ⟨hin, fun k hk c hc => ?_, fun c hc => ?_⟩ <;> rw [hcell c, Request.storedAt?]
  · have hoffset : ((c.val : Int) - address).toNat = k := by omega
    rw [if_pos (by omega), hoffset, List.getElem?_eq_getElem hk]
    rfl
  · split
    · have hnone : block.length ≤ ((c.val : Int) - address).toNat :=
        Nat.le_of_not_lt fun hlt => hc _ hlt (by omega)
      rw [List.getElem?_eq_none hnone]
      rfl
    · rfl

theorem getElem_perform (m : Memory size) (r : Request) (c : Fin size) :
    (m.perform r).cells[c] = (r.storedAt? c).getD m.cells[c] := by
  cases h : m.answer r with
  | ok after => rw [perform, h]; exact cells_of_answer h c
  | error e => rw [perform, h, storedAt?_of_answer_error h c]; rfl

/-! ### Many requests -/

/-- A cell holds the byte that was stored there last, and its first byte if none was. -/
theorem getElem_performAll (m : Memory size) (rs : List Request) (c : Fin size) :
    (m.performAll rs).cells[c] = (rs.reverse.findSome? (·.storedAt? c)).getD m.cells[c] := by
  induction rs generalizing m with
  | nil => rfl
  | cons r rs ih =>
    rw [performAll, List.foldl_cons, ← performAll, ih, getElem_perform, List.reverse_cons,
      List.findSome?_append]
    cases rs.reverse.findSome? (·.storedAt? c) with
    | some b => rfl
    | none => cases h : r.storedAt? c <;> simp [h]

/-- A memory is a row of bytes, whatever is asked of it, refused requests included. It has
    as many bytes as it was made with, and any address reads the byte that was last stored
    where it falls, or zero if there is none. A request stores its bytes and nothing else
    if it is carried out, and nothing at all if it is refused; a block is only carried out
    inside memory. -/
theorem row_of_bytes (size : Nat) [NeZero size] (rs : List Request) :
    let m := (blank size).performAll rs
    m.cells.toList.length = size ∧
      (∀ address, m.readWrapped address =
        .ok ((rs.reverse.findSome? (·.storedAt? (cell size address))).getD 0)) ∧
      (∀ r after, m.answer r = .ok after →
        ∀ c : Fin size, after.cells[c] = (r.storedAt? c).getD m.cells[c]) ∧
      (∀ r e, m.answer r = .error e → m.perform r = m ∧ ∀ c : Fin size, r.storedAt? c = none) ∧
      ∀ address block after, block ≠ [] → m.writeBlock address block = .ok after →
        m.StoresBlock address block after := by
  intro m
  refine ⟨m.cells.length_toList, fun address => ?_, fun r after => cells_of_answer,
    fun r e h => ⟨congrArg m.settle h, storedAt?_of_answer_error h⟩,
    fun address block after => storesBlock_of_writeBlock⟩
  have hzero : (blank size).cells[cell size address] = 0 := Vector.getElem_replicate _
  rw [readWrapped_eq, fetch, getElem_performAll, hzero]

/-- Requests to three cells, of which the second, the fourth and the fifth are refused. -/
def mixedRequests : List Request :=
  [.writeWrapped (-1) 7, .writeBlock (-1) [1, 2], .writeBlock 1 [5, 6], .write 3 9, .write 1 300]

/-- The last cell is read at address 5, and holds the second byte of the block. -/
theorem row_of_bytes_mixedRequests :
    NeZero 3 ∧ ((blank 3).performAll mixedRequests).readWrapped 5 = .ok 6 :=
  ⟨inferInstance, (row_of_bytes 3 mixedRequests).2.1 5⟩

end Chip8.Memory
