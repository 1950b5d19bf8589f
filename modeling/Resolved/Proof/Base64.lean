import Resolved.Base64

/-!
# What the Base64 decoders accept

The decoder of `resolvectl` takes what the encoders write. The one of the DNS-SD configuration
starts anew after each quartet, and takes padding wherever one ends.
-/

namespace Resolved.Proof.Base64
open Lib Resolved.Base64

theorem base64Value_symbol (small : v.toNat < 64) : base64Value (symbol v) = some v := by
  have all : ∀ n < 64, base64Value (symbol (UInt8.ofNat n)) = some (UInt8.ofNat n) := by decide
  simpa using all v.toNat small

theorem base64Value_eq_some : base64Value byte = some v ↔ v.toNat < 64 ∧ byte = symbol v := by
  constructor
  · intro known
    have all : ∀ n < 256, ∀ v ∈ base64Value (UInt8.ofNat n),
        v.toNat < 64 ∧ UInt8.ofNat n = symbol v := by decide +kernel
    simpa using all byte.toNat byte.toNat_lt v (by simpa using known)
  · rintro ⟨small, rfl⟩
    exact base64Value_symbol small

theorem base64Value_pad : base64Value pad = none := by decide

theorem symbol_ne_pad (small : v.toNat < 64) : symbol v ≠ pad := by
  intro same
  have known := base64Value_symbol small
  rw [same, base64Value_pad] at known
  cases known

/-- The padded encoding of octets. The bits of the last symbol that encode nothing are arbitrary. -/
inductive Encodes : Bytes → Bytes → Prop
  | nil : Encodes [] []
  | one (p v : UInt8) (small : v.toNat < 64) (used : v.toNat / 16 = p.toNat % 4) :
      Encodes [symbol (sextet1 p), symbol v, pad, pad] [p]
  | two (p q v : UInt8) (small : v.toNat < 64) (used : v.toNat / 4 = q.toNat % 16) :
      Encodes [symbol (sextet1 p), symbol (sextet2 p q), symbol v, pad] [p, q]
  | three (p q r : UInt8) {text bytes : Bytes} (rest : Encodes text bytes) :
      Encodes (symbol (sextet1 p) :: symbol (sextet2 p q) :: symbol (sextet3 q r) ::
        symbol (sextet4 r) :: text) (p :: q :: r :: bytes)

section
open Resolved.Resolvectl

theorem valueOf_eq_ok : valueOf byte = .ok v ↔ v.toNat < 64 ∧ byte = symbol v := by
  rw [valueOf, okOr_eq_ok, base64Value_eq_some]

theorem valueOrPad_eq_ok : valueOrPad refused byte = .ok z ↔
    (byte = pad ∧ refused = false ∧ z = none) ∨ ∃ v, v.toNat < 64 ∧ byte = symbol v ∧ z = some v := by
  unfold valueOrPad
  split
  · rename_i padded
    subst padded
    have never : ¬∃ v, v.toNat < 64 ∧ pad = symbol v ∧ z = some v := by
      rintro ⟨v, small, same, -⟩
      exact symbol_ne_pad small same.symm
    cases refused <;> simp [never, eq_comm]
  · rename_i other
    simp only [other, false_and, false_or, bind_eq_ok, pure_eq_ok, valueOf_eq_ok, and_assoc]
    simp only [eq_comm]

theorem low4_eq_zero (y : UInt8) : y &&& 0x0f = 0 ↔ y.toNat % 16 = 0 := by
  rw [← UInt8.toNat_inj, UInt8.toNat_and, ← Nat.and_two_pow_sub_one_eq_mod y.toNat 4]
  rfl

theorem low2_eq_zero (z : UInt8) : z &&& 0x03 = 0 ↔ z.toNat % 4 = 0 := by
  rw [← UInt8.toNat_inj, UInt8.toNat_and, ← Nat.and_two_pow_sub_one_eq_mod z.toNat 2]
  rfl

theorem encodeChunks_eq_nil : encodeChunks bytes = [] ↔ bytes = [] := by
  cases bytes using encodeChunks.fun_cases_unfolding <;> simp

theorem chunk_of_decodeChunk (decoded : decodeChunk last a b c d = .ok block) :
    [a, b, c, d] = encodeChunks block ∧ (block.length = 3 ∨ last = true ∧ block ≠ []) := by
  simp only [decodeChunk, bind_eq_ok] at decoded
  obtain ⟨x, first, y, second, z, third, w, fourth, chosen⟩ := decoded
  obtain ⟨hx, rfl⟩ := valueOf_eq_ok.1 first
  obtain ⟨hy, rfl⟩ := valueOf_eq_ok.1 second
  rcases valueOrPad_eq_ok.1 fourth with ⟨rfl, isLast, rfl⟩ | ⟨v', hv', rfl, rfl⟩
  · obtain rfl : last = true := by simpa using isLast
    rcases valueOrPad_eq_ok.1 third with ⟨rfl, -, rfl⟩ | ⟨v, hv, rfl, rfl⟩
    · simp only at chosen
      split at chosen
      · cases chosen
      rename_i zero
      rw [not_not, low4_eq_zero] at zero
      cases chosen
      have back : sextet2 (octet1 x y) 0 = y := by
        rw [← UInt8.toNat_inj, sextet2_toNat, octet1_toNat hy, UInt8.toNat_zero]
        omega
      simp [encodeChunks, sextet1_octet1 hx hy, back]
    · simp only at chosen
      split at chosen
      · cases chosen
      rename_i zero
      rw [not_not, low2_eq_zero] at zero
      cases chosen
      have back : sextet3 (octet2 y v) 0 = v := by
        rw [← UInt8.toNat_inj, sextet3_toNat, octet2_toNat hv, UInt8.toNat_zero]
        omega
      simp [encodeChunks, sextet1_octet1 hx hy, sextet2_octets hy hv, back]
  · rcases valueOrPad_eq_ok.1 third with ⟨rfl, -, rfl⟩ | ⟨v, hv, rfl, rfl⟩
    · cases chosen
    · cases chosen
      simp [encodeChunks, sextet1_octet1 hx hy, sextet2_octets hy hv, sextet3_octets hv hv', sextet4_octet3 hv']

theorem decodeChunk_of_chunk (same : [a, b, c, d] = encodeChunks block)
    (size : block.length = 3 ∨ last = true ∧ block ≠ []) : decodeChunk last a b c d = .ok block := by
  have value : ∀ {v : UInt8}, v.toNat < 64 → valueOf (symbol v) = .ok v :=
    fun small => valueOf_eq_ok.2 ⟨small, rfl⟩
  match block with
  | [] => cases same
  | [p] =>
    have zero : sextet2 p 0 &&& 0x0f = 0 := by
      rw [low4_eq_zero, sextet2_toNat, UInt8.toNat_zero]
      omega
    obtain rfl : last = true := by simpa using size
    cases same
    simp [decodeChunk, valueOrPad, value, sextets_lt p 0 0, octet1_sextets, zero]
  | [p, q] =>
    have zero : sextet3 q 0 &&& 0x03 = 0 := by
      rw [low2_eq_zero, sextet3_toNat, UInt8.toNat_zero]
      omega
    obtain rfl : last = true := by simpa using size
    obtain ⟨hx, hy, hz, -⟩ := sextets_lt p q 0
    cases same
    simp [decodeChunk, valueOrPad, value, hx, hy, hz, symbol_ne_pad hz, octet1_sextets, octet2_sextets, zero]
  | p :: q :: r :: rest =>
    obtain ⟨hx, hy, hz, hw⟩ := sextets_lt p q r
    simp only [encodeChunks, List.cons.injEq] at same
    obtain ⟨rfl, rfl, rfl, rfl, ended⟩ := same
    obtain rfl := encodeChunks_eq_nil.1 ended.symm
    simp [decodeChunk, valueOrPad, value, hx, hy, hz, hw, symbol_ne_pad hz, symbol_ne_pad hw,
      octet1_sextets, octet2_sextets, octet3_sextets]

theorem decodeChunks_encodeChunks (bytes : Bytes) : decodeChunks (encodeChunks bytes) = .ok bytes := by
  induction bytes using encodeChunks.induct with
  | case1 => rfl
  | case2 p =>
    have chunk : decodeChunk ([] : Bytes).isEmpty (symbol (sextet1 p)) (symbol (sextet2 p 0)) pad pad =
      .ok [p] := decodeChunk_of_chunk rfl (.inr ⟨rfl, by simp⟩)
    rw [encodeChunks, decodeChunks, chunk]
    rfl
  | case3 p q =>
    have chunk : decodeChunk ([] : Bytes).isEmpty (symbol (sextet1 p)) (symbol (sextet2 p q))
      (symbol (sextet3 q 0)) pad = .ok [p, q] := decodeChunk_of_chunk rfl (.inr ⟨rfl, by simp⟩)
    rw [encodeChunks, decodeChunks, chunk]
    rfl
  | case4 p q r rest ih =>
    have chunk : decodeChunk (encodeChunks rest).isEmpty (symbol (sextet1 p)) (symbol (sextet2 p q))
      (symbol (sextet3 q r)) (symbol (sextet4 r)) = .ok [p, q, r] := decodeChunk_of_chunk rfl (.inl rfl)
    rw [encodeChunks, decodeChunks, chunk, ok_bind, ih]
    rfl

theorem encodeChunks_of_decodeChunks (whole : text.length % 4 = 0) (decoded : decodeChunks text = .ok bytes) :
    text = encodeChunks bytes := by
  induction text using decodeChunks.induct generalizing bytes with
  | case1 a b c d rest ih =>
    obtain ⟨block, first, decoded⟩ := bind_eq_ok.1 decoded
    obtain ⟨more, later, decoded⟩ := bind_eq_ok.1 decoded
    cases decoded
    have behind := ih (by simp only [List.length_cons] at whole; omega) later
    obtain ⟨same, three | ⟨isLast, -⟩⟩ := chunk_of_decodeChunk first
    · obtain ⟨p, q, r, rfl⟩ := List.length_eq_three.1 three
      cases same
      simp [encodeChunks, ← behind]
    · obtain rfl := List.isEmpty_iff.1 isLast
      cases later
      rw [List.append_nil]
      exact same
  | case2 text short =>
    match text with
    | [] =>
      cases decoded
      rfl
    | [_] | [_, _] | [_, _, _] => simp at whole
    | a :: b :: c :: d :: rest => exact absurd rfl (short a b c d rest)

theorem encodeChunks_length (bytes : Bytes) : (encodeChunks bytes).length % 4 = 0 := by
  induction bytes using encodeChunks.induct with
  | case1 => rfl
  | case2 p => simp [encodeChunks]
  | case3 p q => simp [encodeChunks]
  | case4 p q r rest ih =>
    simp only [encodeChunks, List.length_cons]
    omega

theorem decodeBase64_eq_ok : Resolvectl.decodeBase64 text = .ok bytes ↔ bytes ≠ [] ∧ text = encodeBase64 bytes := by
  unfold Resolvectl.decodeBase64
  constructor
  · intro decoded
    split at decoded
    · cases decoded
    rename_i accepted
    have whole : text.length % 4 = 0 := not_not.1 fun other => accepted (.inr other)
    have same := encodeChunks_of_decodeChunks whole decoded
    refine ⟨?_, same⟩
    rintro rfl
    exact accepted (.inl (by rw [same]; rfl))
  · rintro ⟨some, rfl⟩
    rw [if_neg, encodeBase64, decodeChunks_encodeChunks]
    rintro (empty | odd)
    · have decoded := decodeChunks_encodeChunks bytes
      rw [← encodeBase64, List.isEmpty_iff.1 empty] at decoded
      cases decoded
      exact some rfl
    · exact odd (encodeChunks_length bytes)

end

section
open Resolved.DnsSd

/-- Four characters, symbols first and then so much padding, and the octets they are taken for. -/
inductive Quartet : UInt8 → UInt8 → UInt8 → UInt8 → Nat → Bytes → Prop
  | zero (x y z w : UInt8) (hx : x.toNat < 64) (hy : y.toNat < 64) (hz : z.toNat < 64)
      (hw : w.toNat < 64) : Quartet (symbol x) (symbol y) (symbol z) (symbol w) 0
        [octet1 x y, octet2 y z, octet3 z w]
  | one (x y z : UInt8) (hx : x.toNat < 64) (hy : y.toNat < 64) (hz : z.toNat < 64) :
      Quartet (symbol x) (symbol y) (symbol z) pad 1 [octet1 x y, octet2 y z]
  | two (x y : UInt8) (hx : x.toNat < 64) (hy : y.toNat < 64) :
      Quartet (symbol x) (symbol y) pad pad 2 [octet1 x y]
  | three (x : UInt8) (hx : x.toNat < 64) : Quartet (symbol x) pad pad pad 3 [octet1 x 0]
  | four : Quartet pad pad pad pad 4 [octet1 0 0]

/-- A text of such quartets, how much padding each of them has, and the octets. -/
inductive Quartets : Bytes → List Nat → Bytes → Prop
  | nil : Quartets [] [] []
  | cons {a b c d : UInt8} {padding : Nat} {block text bytes : Bytes} {paddings : List Nat}
      (first : Quartet a b c d padding block) (rest : Quartets text paddings bytes) :
      Quartets (a :: b :: c :: d :: text) (padding :: paddings) (block ++ bytes)

def WellPadded : List Nat → Prop
  | [] => True
  | [padding] => padding ≤ 2
  | padding :: paddings => padding = 0 ∧ WellPadded paddings

theorem quartetStep_eq_ok : quartetStep s byte = .ok next ↔ (byte = pad ∧ next = push s 0 (s.padding + 1)) ∨
      ∃ v, v.toNat < 64 ∧ byte = symbol v ∧ s.padding = 0 ∧ next = push s v 0 := by
  unfold quartetStep
  split
  · rename_i padded
    subst padded
    have never : ¬∃ v, v.toNat < 64 ∧ pad = symbol v ∧ s.padding = 0 ∧ next = push s v 0 := by
      rintro ⟨v, small, same, -⟩
      exact symbol_ne_pad small same.symm
    simp [never, eq_comm]
  · rename_i other
    split
    · rename_i padding
      simp [other, padding]
    · rename_i padding
      simp only [bind_eq_ok, okOr_eq_ok, pure_eq_ok, base64Value_eq_some, other, false_and, false_or,
        not_not.1 padding, true_and, and_assoc]
      simp only [eq_comm]

theorem quartet_fold (first : Quartet a b c d padding block) :
    [a, b, c, d].foldlM quartetStep ⟨[], 0, out⟩ = .ok ⟨[], 0, out ++ block⟩ := by
  have symbols : ∀ {s v}, v.toNat < 64 → s.padding = 0 →
      quartetStep s (symbol v) = .ok (push s v 0) :=
    fun small start => quartetStep_eq_ok.2 (.inr ⟨_, small, rfl, start, rfl⟩)
  have pads : ∀ s, quartetStep s pad = .ok (push s 0 (s.padding + 1)) :=
    fun s => quartetStep_eq_ok.2 (.inl ⟨rfl, rfl⟩)
  cases first <;> simp [List.foldlM_cons, push, *]

theorem fold_of_quartets (quartets : Quartets text paddings bytes) :
    text.foldlM quartetStep ⟨[], 0, out⟩ = .ok ⟨[], 0, out ++ bytes⟩ := by
  induction quartets generalizing out with
  | nil => simp [pure, Except.pure]
  | @cons a b c d padding block text bytes paddings first rest ih =>
    have split : a :: b :: c :: d :: text = [a, b, c, d] ++ text := rfl
    rw [split, List.foldlM_append, quartet_fold first, ok_bind, ih, List.append_assoc]

theorem push_length (s : Base64State) (value : UInt8) (padding : Nat) (short : s.quartet.length < 4) :
    (push s value padding).quartet.length = (s.quartet.length + 1) % 4 := by
  obtain ⟨quartet, old, output⟩ := s
  match quartet with
  | [] | [_] | [_, _] | [_, _, _] => simp [push]
  | _ :: _ :: _ :: _ :: rest =>
    simp only [List.length_cons] at short
    omega

theorem fold_length {text : Bytes} {s final : Base64State} (run : text.foldlM quartetStep s = .ok final)
    (short : s.quartet.length < 4) : final.quartet.length = (s.quartet.length + text.length) % 4 := by
  induction text generalizing s with
  | nil =>
    cases run
    rw [List.length_nil, Nat.add_zero, Nat.mod_eq_of_lt short]
  | cons byte text ih =>
    obtain ⟨next, step, run⟩ := bind_eq_ok.1 run
    have length : next.quartet.length = (s.quartet.length + 1) % 4 := by
      rcases quartetStep_eq_ok.1 step with ⟨-, rfl⟩ | ⟨v, -, -, -, rfl⟩
      · exact push_length s _ _ short
      · exact push_length s _ _ short
    rw [ih run (by omega), length, List.length_cons]
    omega

theorem pad_of_step (step : quartetStep s byte = .ok next) (padded : s.padding ≠ 0) :
    byte = pad ∧ next = push s 0 (s.padding + 1) := by
  rcases quartetStep_eq_ok.1 step with here | ⟨v, -, -, start, -⟩
  · exact here
  · exact absurd start padded

theorem quartet_of_fold (run : [a, b, c, d].foldlM quartetStep ⟨[], 0, out⟩ = .ok next) :
    ∃ padding block, Quartet a b c d padding block ∧ next = ⟨[], 0, out ++ block⟩ := by
  simp only [List.foldlM_cons, List.foldlM_nil, bind_eq_ok, pure_eq_ok] at run
  obtain ⟨s₁, first, s₂, second, s₃, third, s₄, fourth, rfl⟩ := run
  -- behind the first padding there is nothing else
  rcases quartetStep_eq_ok.1 first with ⟨rfl, rfl⟩ | ⟨x, hx, rfl, -, rfl⟩
  · obtain ⟨rfl, rfl⟩ := pad_of_step second (by simp [push])
    obtain ⟨rfl, rfl⟩ := pad_of_step third (by simp [push])
    obtain ⟨rfl, rfl⟩ := pad_of_step fourth (by simp [push])
    exact ⟨4, _, .four, rfl⟩
  rcases quartetStep_eq_ok.1 second with ⟨rfl, rfl⟩ | ⟨y, hy, rfl, -, rfl⟩
  · obtain ⟨rfl, rfl⟩ := pad_of_step third (by simp [push])
    obtain ⟨rfl, rfl⟩ := pad_of_step fourth (by simp [push])
    exact ⟨3, _, .three x hx, rfl⟩
  rcases quartetStep_eq_ok.1 third with ⟨rfl, rfl⟩ | ⟨z, hz, rfl, -, rfl⟩
  · obtain ⟨rfl, rfl⟩ := pad_of_step fourth (by simp [push])
    exact ⟨2, _, .two x y hx hy, rfl⟩
  rcases quartetStep_eq_ok.1 fourth with ⟨rfl, rfl⟩ | ⟨w, hw, rfl, -, rfl⟩
  · exact ⟨1, _, .one x y z hx hy hz, rfl⟩
  · exact ⟨0, _, .zero x y z w hx hy hz hw, rfl⟩

theorem quartets_of_fold (text : Bytes) {final : Base64State}
    (run : text.foldlM quartetStep ⟨[], 0, out⟩ = .ok final) (whole : final.quartet.length = 0) :
    ∃ paddings bytes, Quartets text paddings bytes ∧ final.output = out ++ bytes := by
  have length := fold_length run (by simp)
  match text with
  | [] =>
    cases run
    exact ⟨[], [], .nil, by simp⟩
  | [_] | [_, _] | [_, _, _] =>
    simp only [List.length_cons, List.length_nil] at length
    omega
  | a :: b :: c :: d :: text =>
    have split : a :: b :: c :: d :: text = [a, b, c, d] ++ text := rfl
    rw [split, List.foldlM_append] at run
    obtain ⟨next, here, run⟩ := bind_eq_ok.1 run
    obtain ⟨padding, block, first, rfl⟩ := quartet_of_fold here
    obtain ⟨paddings, bytes, rest, same⟩ := quartets_of_fold text run whole
    exact ⟨padding :: paddings, block ++ bytes, .cons first rest, by rw [same, List.append_assoc]⟩

theorem decodeBase64_quartets : DnsSd.decodeBase64 value = .ok bytes ↔
    ∃ paddings, Quartets (value.filter (! isAsciiWhitespace ·)) paddings bytes := by
  simp only [DnsSd.decodeBase64, bind_eq_ok]
  constructor
  · rintro ⟨final, run, decoded⟩
    split at decoded
    · cases decoded
    · rename_i whole
      cases decoded
      obtain ⟨paddings, bytes, quartets, same⟩ := quartets_of_fold _ run (not_not.1 whole)
      rw [same]
      exact ⟨paddings, quartets⟩
  · rintro ⟨paddings, quartets⟩
    exact ⟨_, fold_of_quartets quartets, by simp⟩

theorem Quartet.count (quartet : Quartet a b c d padding block) : padding = [a, b, c, d].count pad := by
  cases quartet <;> simp [symbol_ne_pad, *]

theorem Quartets.unique (quartets : Quartets text paddings bytes) (quartets' : Quartets text paddings' bytes') :
    paddings = paddings' := by
  induction quartets generalizing paddings' bytes' with
  | nil =>
    cases quartets'
    rfl
  | cons first rest ih =>
    cases quartets' with
    | cons first' rest' => rw [first.count, first'.count, ih rest']

theorem encodes_iff : Encodes text bytes ↔ ∃ paddings, Quartets text paddings bytes ∧ WellPadded paddings := by
  constructor
  · intro encodes
    induction encodes with
    | nil => exact ⟨[], .nil, trivial⟩
    | one p v small used =>
      have quartet := Quartet.two (sextet1 p) v (sextets_lt p 0 0).1 small
      rw [(octet1_eq_iff small).2 used] at quartet
      exact ⟨[2], .cons quartet .nil, le_rfl⟩
    | two p q v small used =>
      obtain ⟨hx, hy, -, -⟩ := sextets_lt p q 0
      have quartet := Quartet.one (sextet1 p) (sextet2 p q) v hx hy small
      rw [octet1_sextets, (octet2_eq_iff small).2 used] at quartet
      exact ⟨[1], .cons quartet .nil, Nat.le_succ 1⟩
    | three p q r rest ih =>
      obtain ⟨hx, hy, hz, hw⟩ := sextets_lt p q r
      have quartet := Quartet.zero (sextet1 p) (sextet2 p q) (sextet3 q r) (sextet4 r) hx hy hz hw
      rw [octet1_sextets, octet2_sextets, octet3_sextets] at quartet
      obtain ⟨paddings, quartets, padded⟩ := ih
      refine ⟨0 :: paddings, .cons quartet quartets, ?_⟩
      cases paddings with
      | nil => exact Nat.zero_le 2
      | cons padding paddings => exact ⟨rfl, padded⟩
  · rintro ⟨paddings, quartets, padded⟩
    induction quartets with
    | nil => exact .nil
    | @cons a b c d padding block text bytes paddings first rest ih =>
      have padded' : WellPadded paddings ∧ (padding ≠ 0 → paddings = [] ∧ padding ≤ 2) := by
        cases paddings with
        | nil => exact ⟨trivial, fun _ => ⟨rfl, padded⟩⟩
        | cons next paddings => exact ⟨padded.2, fun some => absurd padded.1 some⟩
      have only : padding ≠ 0 → text = [] ∧ bytes = [] := by
        intro some
        obtain ⟨rfl, -⟩ := padded'.2 some
        cases rest
        exact ⟨rfl, rfl⟩
      cases first with
      | zero x y z w hx hy hz hw =>
        have encodes := Encodes.three (octet1 x y) (octet2 y z) (octet3 z w) (ih padded'.1)
        rwa [sextet1_octet1 hx hy, sextet2_octets hy hz, sextet3_octets hz hw, sextet4_octet3 hw] at encodes
      | one x y z hx hy hz =>
        obtain ⟨rfl, rfl⟩ := only (by decide)
        have encodes := Encodes.two (octet1 x y) (octet2 y z) z hz
          (by rw [octet2_toNat hz]; omega)
        rwa [sextet1_octet1 hx hy, sextet2_octets hy hz] at encodes
      | two x y hx hy =>
        obtain ⟨rfl, rfl⟩ := only (by decide)
        have encodes := Encodes.one (octet1 x y) y hy (by rw [octet1_toNat hy]; omega)
        rwa [sextet1_octet1 hx hy] at encodes
      | three x hx | four => exact absurd (padded'.2 (by decide)).2 (by decide)

end

/-- The decoder of `resolvectl` takes the encodings of both encoders and nothing else; that of the
DNS-SD configuration takes the encodings exactly when no quartet but the last has padding, and that
one two symbols at least. -/
theorem decoders_canonical_iff (text : Bytes) :
    ((∀ bytes, Resolvectl.decodeBase64 text = .ok bytes ↔ bytes ≠ [] ∧
          text = Resolvectl.encodeBase64 bytes ∧ Resolvectl.encodeBase64 bytes = Varlink.base64 bytes) ∧
        ∀ bytes, DnsSd.decodeBase64 text = .ok bytes ↔ Encodes (text.filter (! DnsSd.isAsciiWhitespace ·)) bytes) ↔
      ∀ paddings bytes, Quartets (text.filter (! DnsSd.isAsciiWhitespace ·)) paddings bytes →
        WellPadded paddings := by
  constructor
  · rintro ⟨-, decodes⟩ paddings bytes quartets
    obtain ⟨paddings', quartets', padded⟩ :=
      encodes_iff.1 ((decodes bytes).1 (decodeBase64_quartets.2 ⟨paddings, quartets⟩))
    rwa [quartets.unique quartets']
  · intro padded
    refine ⟨fun bytes => ?_, fun bytes => ?_⟩
    · rw [decodeBase64_eq_ok]
      constructor
      · rintro ⟨filled, same⟩
        exact ⟨filled, same, rfl⟩
      · rintro ⟨filled, same, -⟩
        exact ⟨filled, same⟩
    · rw [decodeBase64_quartets, encodes_iff]
      constructor
      · rintro ⟨paddings, quartets⟩
        exact ⟨paddings, quartets, padded paddings bytes quartets⟩
      · rintro ⟨paddings, quartets, -⟩
        exact ⟨paddings, quartets⟩

theorem decoders_canonical_padded :
    DnsSd.decodeBase64 ([81, 81, 61, 61, 10] : Bytes) = .ok [65] ∧ Encodes [81, 81, 61, 61] [65] := by
  have quartet : Quartets [81, 81, 61, 61] [2] [65] := .cons (.two 16 16 (by decide) (by decide)) .nil
  have condition : ∀ paddings bytes, Quartets (([81, 81, 61, 61, 10] : Bytes).filter
      (! DnsSd.isAsciiWhitespace ·)) paddings bytes → WellPadded paddings := by
    intro paddings bytes quartets
    rw [quartets.unique quartet]
    exact le_rfl
  have decoded : DnsSd.decodeBase64 ([81, 81, 61, 61, 10] : Bytes) = .ok [65] := by decide
  exact ⟨decoded, (((decoders_canonical_iff [81, 81, 61, 61, 10]).2 condition).2 [65]).1 decoded⟩

theorem decodeBase64_padding_inside :
    (DnsSd.decodeBase64 [81, 81, 61, 61, 81, 81, 61, 61] = .ok [65, 65] ∧
        ¬Encodes [81, 81, 61, 61, 81, 81, 61, 61] [65, 65]) ∧
      DnsSd.decodeBase64 [61, 61, 61, 61] = .ok [0] ∧ ¬Encodes [61, 61, 61, 61] [0] := by
  have double : Quartets [81, 81, 61, 61, 81, 81, 61, 61] [2, 2] [65, 65] :=
    .cons (.two 16 16 (by decide) (by decide)) (.cons (.two 16 16 (by decide) (by decide)) .nil)
  have alone : Quartets [61, 61, 61, 61] [4] [0] := .cons .four .nil
  refine ⟨⟨by decide, fun encodes => ?_⟩, by decide, fun encodes => ?_⟩
  · obtain ⟨paddings, quartets, padded⟩ := encodes_iff.1 encodes
    rw [quartets.unique double] at padded
    exact absurd padded.1 (by decide)
  · obtain ⟨paddings, quartets, padded⟩ := encodes_iff.1 encodes
    rw [quartets.unique alone] at padded
    exact absurd padded (by decide : ¬ 4 ≤ 2)

end Resolved.Proof.Base64
