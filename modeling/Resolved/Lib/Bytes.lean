import Mathlib

namespace Resolved.Lib

variable {bytes part front new : Bytes} {start stop : Nat}

abbrev Bytes := List UInt8

instance instLawfulBEqBytes : LawfulBEq Bytes := inferInstance

def slice (bytes : Bytes) (start stop : Nat) : Option Bytes :=
  if start ≤ stop ∧ stop ≤ bytes.length then some ((bytes.drop start).take (stop - start)) else none

def overwrite (bytes : Bytes) (start : Nat) (new : Bytes) : Bytes :=
  bytes.take start ++ new ++ bytes.drop (start + new.length)

def be16 (a b : UInt8) : Nat := a.toNat * 256 + b.toNat

def be32 (a b c d : UInt8) : Nat :=
  a.toNat * 16777216 + b.toNat * 65536 + c.toNat * 256 + d.toNat

def toBe16 (value : Nat) : Bytes := [UInt8.ofNat (value / 256), UInt8.ofNat value]

def toBe32 (value : Nat) : Bytes :=
  [UInt8.ofNat (value / 16777216), UInt8.ofNat (value / 65536), UInt8.ofNat (value / 256), UInt8.ofNat value]

def asciiLower (byte : UInt8) : UInt8 := if 65 ≤ byte ∧ byte ≤ 90 then byte + 32 else byte

theorem slice_eq_some :
    slice bytes start stop = some part ↔
      start ≤ stop ∧ stop ≤ bytes.length ∧ part = (bytes.drop start).take (stop - start) := by
  unfold slice
  split <;> simp_all [eq_comm]

theorem slice_length (h : slice bytes start stop = some part) : part.length = stop - start := by
  obtain ⟨_, _, rfl⟩ := slice_eq_some.1 h
  simp
  omega

theorem slice_getElem? (h : slice bytes start stop = some part) (i : Nat) (hi : i < stop - start) :
    part[i]? = bytes[start + i]? := by
  obtain ⟨_, _, rfl⟩ := slice_eq_some.1 h
  rw [List.getElem?_take_of_lt hi, List.getElem?_drop]

theorem slice_congr {other : Bytes} {start' length : Nat} (room : start' ≤ other.length)
    (same : ∀ k, k < length → other[start' + k]? = bytes[start + k]?)
    (h : slice bytes start (start + length) = some part) : slice other start' (start' + length) = some part := by
  obtain ⟨_, bound, rfl⟩ := slice_eq_some.1 h
  have bound' : start' + length ≤ other.length := by
    cases length with
    | zero => exact room
    | succ n =>
      have last := same n (Nat.lt_succ_self n)
      rw [List.getElem?_eq_getElem (by omega : start + n < bytes.length)] at last
      have := (List.getElem?_eq_some_iff.1 last).1
      omega
  refine slice_eq_some.2 ⟨by omega, bound', ?_⟩
  apply List.ext_getElem?
  intro i
  by_cases hi : i < length
  · simp only [Nat.add_sub_cancel_left]
    rw [List.getElem?_take_of_lt hi, List.getElem?_take_of_lt hi, List.getElem?_drop,
      List.getElem?_drop, same i hi]
  · rw [List.getElem?_eq_none, List.getElem?_eq_none] <;> simp <;> omega

theorem slice_append {first second : Bytes} :
    slice bytes start stop = some (first ++ second) ↔ slice bytes start (start + first.length) = some first ∧
        slice bytes (start + first.length) stop = some second := by
  simp only [slice_eq_some]
  constructor
  · rintro ⟨ordered, bound, whole⟩
    have total := congrArg List.length whole
    rw [List.length_append, List.length_take, List.length_drop] at total
    refine ⟨⟨by omega, by omega, ?_⟩, by omega, bound, ?_⟩
    · have front := congrArg (List.take first.length) whole
      rw [List.take_left, List.take_take, Nat.min_eq_left (by omega)] at front
      rw [Nat.add_sub_cancel_left]
      exact front
    · have rear := congrArg (List.drop first.length) whole
      rw [List.drop_left, List.drop_take, List.drop_drop] at rear
      rw [rear]
      congr 1
      omega
  · rintro ⟨⟨-, -, front⟩, ordered, bound, rear⟩
    refine ⟨by omega, bound, ?_⟩
    rw [Nat.add_sub_cancel_left] at front
    have split : stop - start = first.length + (stop - (start + first.length)) := by omega
    rw [split, List.take_add, List.drop_drop, ← front, ← rear]

theorem slice_append_left (rear : Bytes) (here : slice front start stop = some part) : slice (front ++ rear) start stop = some part := by
  obtain ⟨ordered, inside, rfl⟩ := slice_eq_some.1 here
  refine slice_eq_some.2 ⟨ordered, by rw [List.length_append]; omega, ?_⟩
  rw [List.drop_append_of_le_length (by omega), List.take_append_of_le_length]
  rw [List.length_drop]
  omega

theorem eq_append_of_slice (here : slice bytes 0 stop = some part) : bytes = part ++ bytes.drop stop := by
  obtain ⟨-, -, whole⟩ := slice_eq_some.1 here
  rw [whole, List.drop_zero, Nat.sub_zero, List.take_append_drop]

theorem slice_singleton {byte : UInt8} (written : slice bytes start stop = some [byte]) :
    bytes[start]? = some byte ∧ stop = start + 1 := by
  have length := slice_length written
  have first := slice_getElem? written 0 (by simp at length; omega)
  have ordered := (slice_eq_some.1 written).1
  simp at length first
  exact ⟨first.symm, by omega⟩

theorem slice_take {whole : Bytes} {middle : Nat} (all : slice bytes start stop = some whole)
    (front : slice bytes start middle = some part) (ordered : middle ≤ stop) : whole.take part.length = part := by
  have length := slice_length front
  obtain ⟨-, -, rfl⟩ := slice_eq_some.1 all
  obtain ⟨-, -, rfl⟩ := slice_eq_some.1 front
  rw [length, List.take_take, Nat.min_eq_left (by omega)]

theorem overwrite_length (bound : start + new.length ≤ bytes.length) :
    (overwrite bytes start new).length = bytes.length := by
  simp [overwrite]
  omega

theorem overwrite_getElem? (bound : start + new.length ≤ bytes.length) (i : Nat) :
    (overwrite bytes start new)[i]? =
      if start ≤ i ∧ i < start + new.length then new[i - start]? else bytes[i]? := by
  have htake : (bytes.take start).length = start := by simp; omega
  unfold overwrite
  split
  · rename_i inside
    rw [List.append_assoc, List.getElem?_append_right (by omega), htake, List.getElem?_append_left (by omega)]
  · rename_i outside
    by_cases before : i < start
    · rw [List.append_assoc, List.getElem?_append_left (by omega), List.getElem?_take_of_lt before]
    · rw [List.getElem?_append_right (by simp; omega), List.getElem?_drop]
      congr 1
      simp
      omega

theorem overwrite_getElem?_of_lt {i : Nat} (bound : start + new.length ≤ bytes.length)
    (h : i < start ∨ start + new.length ≤ i) : (overwrite bytes start new)[i]? = bytes[i]? := by
  rw [overwrite_getElem? bound, if_neg (by omega)]

theorem slice_middle (front middle rear : Bytes) :
    slice (front ++ middle ++ rear) front.length (front.length + middle.length) = some middle := by
  refine slice_eq_some.2 ⟨by omega, by simp, ?_⟩
  simp

theorem overwrite_self (here : slice bytes start (start + part.length) = some part) : overwrite bytes start part = bytes := by
  obtain ⟨-, inside, whole⟩ := slice_eq_some.1 here
  rw [Nat.add_sub_cancel_left] at whole
  conv_rhs => rw [← List.take_append_drop start bytes, ← List.take_append_drop part.length (bytes.drop start)]
  rw [overwrite, ← whole, List.drop_drop, List.append_assoc]

theorem overwrite_append (rear : Bytes) (inside : start + new.length ≤ front.length) :
    overwrite (front ++ rear) start new = overwrite front start new ++ rear := by
  rw [overwrite, overwrite, List.take_append_of_le_length (by omega), List.drop_append_of_le_length inside]
  simp only [List.append_assoc]

theorem overwrite_middle (front rear : Bytes) {old new : Bytes} (same : new.length = old.length) :
    overwrite (front ++ old ++ rear) front.length new = front ++ new ++ rear := by
  have taken : (front ++ old ++ rear).take front.length = front := by
    rw [List.append_assoc, List.take_left' rfl]
  have dropped : (front ++ old ++ rear).drop (front.length + old.length) = rear :=
    List.drop_left' List.length_append
  rw [overwrite, same, taken, dropped]

theorem overwrite_overwrite {old : Bytes} (same : new.length = old.length)
    (inside : start + old.length ≤ bytes.length) :
    overwrite (overwrite bytes start old) start new = overwrite bytes start new := by
  have front : (bytes.take start).length = start := List.length_take_of_le (by omega)
  have middle := overwrite_middle (bytes.take start) (bytes.drop (start + old.length)) same
  rw [front] at middle
  change overwrite (bytes.take start ++ old ++ bytes.drop (start + old.length)) start new = _
  rw [middle, overwrite, same]

theorem slice_overwrite (room : start + new.length ≤ bytes.length) :
    slice (overwrite bytes start new) start (start + new.length) = some new := by
  have front : (bytes.take start).length = start := by
    rw [List.length_take]
    omega
  have here := slice_middle (bytes.take start) new (bytes.drop (start + new.length))
  rw [front] at here
  exact here

theorem be16_lt (a b : UInt8) : be16 a b < 65536 := by
  have := a.toNat_lt
  have := b.toNat_lt
  unfold be16
  omega

@[simp] theorem toBe16_length (value : Nat) : (toBe16 value).length = 2 := rfl

@[simp] theorem toBe32_length (value : Nat) : (toBe32 value).length = 4 := rfl

theorem be16_toBe16 (value : Nat) (h : value < 65536) :
    be16 (UInt8.ofNat (value / 256)) (UInt8.ofNat value) = value := by
  simp [be16]
  omega

theorem toBe16_be16 (a b : UInt8) : toBe16 (be16 a b) = [a, b] := by
  have := a.toNat_lt
  have := b.toNat_lt
  simp only [toBe16, be16, List.cons.injEq, and_true]
  constructor
  · apply UInt8.toNat.inj
    simp
    omega
  · apply UInt8.toNat.inj
    simp

theorem toBe16_mod (value : Nat) : toBe16 (value % 65536) = toBe16 value := by
  have high : UInt8.ofNat (value % 65536 / 256) = UInt8.ofNat (value / 256) := by
    apply UInt8.toNat_inj.1
    simp only [UInt8.toNat_ofNat']
    omega
  have low : UInt8.ofNat (value % 65536) = UInt8.ofNat value := by
    apply UInt8.toNat_inj.1
    simp only [UInt8.toNat_ofNat']
    omega
  rw [toBe16, high, low, toBe16]

theorem toBe32_be32 (a b c d : UInt8) : toBe32 (be32 a b c d) = [a, b, c, d] := by
  have := a.toNat_lt
  have := b.toNat_lt
  have := c.toNat_lt
  have := d.toNat_lt
  simp only [toBe32, be32, List.cons.injEq, and_true]
  refine ⟨?_, ?_, ?_, ?_⟩ <;> apply UInt8.toNat.inj <;> simp <;> omega

theorem be32_lt (a b c d : UInt8) : be32 a b c d < 2 ^ 32 := by
  have := a.toNat_lt
  have := b.toNat_lt
  have := c.toNat_lt
  have := d.toNat_lt
  unfold be32
  omega

end Resolved.Lib
