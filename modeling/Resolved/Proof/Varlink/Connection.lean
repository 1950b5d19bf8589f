import Resolved.Lib.Separated
import Resolved.Spec.Varlink

/-!
# Replies on a connection
-/

namespace Resolved.Proof.Varlink
open Lib Resolved.Varlink Spec

variable {rear stream : Bytes}

theorem splitOn_messages (stream : Bytes) : stream.splitOn 0 = messagesOf stream ++ [unfinished stream] := by
  rw [messagesOf, unfinished]
  conv_lhs => rw [← List.dropLast_append_getLast (List.splitOn_ne_nil 0 stream)]
  rw [List.getLastD_eq_getLast?, List.getLast?_eq_some_getLast (List.splitOn_ne_nil 0 stream), Option.getD_some]

theorem messagesOf_append (front rear : Bytes) :
    messagesOf (front ++ rear) = messagesOf front ++ messagesOf (unfinished front ++ rear) := by
  rw [messagesOf, splitOn_append, List.dropLast_append_of_ne_nil (List.splitOn_ne_nil _ _)]
  rfl

theorem unfinished_append (front rear : Bytes) :
    unfinished (front ++ rear) = unfinished (unfinished front ++ rear) := by
  rw [unfinished, splitOn_append, List.getLastD_eq_getLast?, List.getLast?_append_of_ne_nil _ (List.splitOn_ne_nil _ _),
    ← List.getLastD_eq_getLast?]
  rfl

theorem messagesOf_length (member : message ∈ messagesOf stream) : message.length < stream.length := by
  have total := sum_length_splitOn (0 : UInt8) stream
  rw [splitOn_messages, List.map_append, List.sum_append] at total
  have one : message.length + 1 ≤ ((messagesOf stream).map fun part : List UInt8 => part.length + 1).sum :=
    List.single_le_sum (by simp) _ (List.mem_map.mpr ⟨message, member, rfl⟩)
  simp only [List.map_singleton, List.sum_singleton] at total
  omega

theorem unfinished_length (stream : Bytes) : (unfinished stream).length ≤ stream.length := by
  have total := sum_length_splitOn (0 : UInt8) stream
  rw [splitOn_messages, List.map_append, List.sum_append] at total
  simp at total
  omega

section
variable {σ : Type} {answer : σ → Bytes → Bytes × σ}

theorem answerAll_append (s : σ) (front rear : List Bytes) :
    answerAll answer s (front ++ rear) =
      ((answerAll answer s front).1 ++ (answerAll answer (answerAll answer s front).2 rear).1,
        (answerAll answer (answerAll answer s front).2 rear).2) := by
  induction front generalizing s with
  | nil => rfl
  | cons message rest ih => simp [answerAll, ih]

theorem findIdx_zero {front : Bytes} (free : 0 ∉ front) :
    (front ++ 0 :: rear).findIdx? (· == 0) = some front.length := by
  have none : front.findIdx? (· == 0) = none := by
    rw [List.findIdx?_eq_none_iff]
    intro byte member
    simpa using fun zero : byte = 0 => free (zero ▸ member)
  simp [List.findIdx?_append, none, List.findIdx?_cons]

theorem messagesOf_cons {front : Bytes} (free : 0 ∉ front) :
    messagesOf (front ++ 0 :: rear) = front :: messagesOf rear := by
  rw [messagesOf, splitOn_first free, List.dropLast_cons_of_ne_nil (List.splitOn_ne_nil _ _)]
  rfl

theorem unfinished_cons {front : Bytes} (free : 0 ∉ front) : unfinished (front ++ 0 :: rear) = unfinished rear := by
  rw [unfinished, splitOn_first free, List.getLastD_eq_getLast?,
    List.getLast?_cons_of_ne_nil (List.splitOn_ne_nil _ _), ← List.getLastD_eq_getLast?]
  rfl

theorem messagesOf_free (free : 0 ∉ stream) : messagesOf stream = [] := by
  rw [messagesOf, List.splitOn_eq_singleton free, List.dropLast_singleton]

theorem unfinished_free (free : 0 ∉ stream) : unfinished stream = stream := by
  rw [unfinished, List.splitOn_eq_singleton free]
  rfl

theorem drainMessages_eq {turns : Nat} (s : σ) {pending : Bytes} (enough : pending.length ≤ turns) :
    drainMessages answer turns s pending =
      ((answerAll answer s (messagesOf pending)).1, (answerAll answer s (messagesOf pending)).2,
        unfinished pending) := by
  induction turns generalizing s pending with
  | zero =>
    rw [Nat.le_zero, List.length_eq_zero_iff] at enough
    subst enough
    rfl
  | succ turns ih =>
    by_cases ended : 0 ∈ pending
    · obtain ⟨front, rear, rfl, free⟩ := List.eq_append_cons_of_mem ended
      rw [drainMessages, findIdx_zero free, messagesOf_cons free, unfinished_cons free]
      have shorter : rear.length ≤ turns := by
        simp only [List.length_append, List.length_cons] at enough
        omega
      simp [ih _ shorter, answerAll]
    · have none : pending.findIdx? (· == 0) = none := by
        rw [List.findIdx?_eq_none_iff]
        intro byte member
        simpa using fun zero : byte = 0 => ended (zero ▸ member)
      rw [drainMessages, none, messagesOf_free ended, unfinished_free ended]
      rfl

theorem expectedReplies_append (s : σ) (small : pending.length ≤ maxMessageSize) (later : Bytes) :
    expectedReplies answer s (pending ++ later) = ((answerAll answer s (messagesOf pending)).1 ++
          (expectedReplies answer (answerAll answer s (messagesOf pending)).2 (unfinished pending ++ later)).1,
        (expectedReplies answer (answerAll answer s (messagesOf pending)).2 (unfinished pending ++ later)).2) := by
  have within : ∀ message ∈ messagesOf pending, message.length ≤ maxMessageSize :=
    fun message member => (messagesOf_length member).le.trans small
  have split : (pending ++ later).splitOn 0 = messagesOf pending ++ (unfinished pending ++ later).splitOn 0 :=
    splitOn_append 0 pending later
  have checks : (messagesOf pending).all (·.length ≤ maxMessageSize) = true := by
    simpa using within
  simp only [expectedReplies, messagesOf_append pending later, split, List.all_append, checks, Bool.true_and]
  rw [List.takeWhile_append_of_pos (by simpa using within), answerAll_append]

theorem expectedReplies_over (s : σ) {held : Bytes} (exceeds : maxMessageSize < held.length) (later : Bytes) :
    expectedReplies answer s (held ++ later) = ([], .tooLarge) ↔
      ¬∃ stop ≤ maxMessageSize, held[stop]? = some 0 := by
  have same : ∀ stop ≤ maxMessageSize, held[stop]? = (held ++ later)[stop]? := by
    intro stop within
    rw [List.getElem?_append_left (by omega)]
  have long : maxMessageSize < (held ++ later).length := by
    rw [List.length_append]
    omega
  generalize held ++ later = stream at same long
  by_cases ended : 0 ∈ stream
  · obtain ⟨front, rear, rfl, free⟩ := List.eq_append_cons_of_mem ended
    by_cases short : front.length ≤ maxMessageSize
    · have stop : held[front.length]? = some 0 := by
        rw [same _ short, List.getElem?_append_right le_rfl, Nat.sub_self, List.getElem?_cons_zero]
      have more : (expectedReplies answer s (front ++ 0 :: rear)).1 ≠ [] := by
        simp [expectedReplies, messagesOf_cons free, short, answerAll]
      constructor
      · intro same
        rw [same] at more
        exact absurd rfl more
      · intro none
        exact absurd ⟨front.length, short, stop⟩ none
    · constructor
      · rintro - ⟨stop, within, zero⟩
        rw [same _ within, List.getElem?_append_left (by omega)] at zero
        exact free (List.mem_of_getElem? zero)
      · intro _
        simp [expectedReplies, messagesOf_cons free, splitOn_first free, short, answerAll]
  · constructor
    · rintro - ⟨stop, within, zero⟩
      rw [same _ within] at zero
      exact ended (List.mem_of_getElem? zero)
    · intro _
      simp [expectedReplies, messagesOf_free ended, List.splitOn_eq_singleton ended, answerAll, long]

end

theorem unfinished_idem (stream rest : Bytes) :
    unfinished (unfinished stream ++ rest) = unfinished (stream ++ rest) :=
  (unfinished_append stream rest).symm

theorem cutsOff_over (exceeds : maxMessageSize < (unfinished pending ++ chunk).length) :
    CutsOff pending (chunk :: chunks) ↔ ∃ stop ≤ maxMessageSize, (unfinished pending ++ chunk)[stop]? = some 0 := by
  constructor
  · rintro ⟨before, cut, after, parts, kept, long, stop⟩
    cases before with
    | nil =>
      obtain ⟨rfl, rfl⟩ := List.cons.inj parts
      simpa using stop
    | cons first before =>
      obtain ⟨rfl, rfl⟩ := List.cons.inj parts
      have fits := kept [] chunk (by simp)
      simp only [List.flatten_nil, List.append_nil] at fits
      omega
  · intro stop
    exact ⟨[], chunk, chunks, rfl, by simp, by simpa using exceeds, by simpa using stop⟩

theorem cutsOff_within (fits : (unfinished pending ++ chunk).length ≤ maxMessageSize) :
    CutsOff pending (chunk :: chunks) ↔ CutsOff (unfinished pending ++ chunk) chunks := by
  have moved : ∀ rest : Bytes,
      unfinished (unfinished pending ++ chunk ++ rest) = unfinished (pending ++ (chunk ++ rest)) := by
    intro rest
    rw [List.append_assoc, unfinished_idem]
  constructor
  · rintro ⟨before, cut, after, parts, kept, long, stop⟩
    cases before with
    | nil =>
      obtain ⟨rfl, rfl⟩ := List.cons.inj parts
      simp only [List.flatten_nil, List.append_nil] at long
      omega
    | cons first before =>
      obtain ⟨rfl, rfl⟩ := List.cons.inj parts
      refine ⟨before, cut, after, rfl, ?_, ?_, ?_⟩
      · intro front part inside
        rw [moved]
        exact kept (chunk :: front) part (by simpa using inside)
      · rw [moved]
        exact long
      · rw [moved]
        exact stop
  · rintro ⟨before, cut, after, rfl, kept, long, stop⟩
    simp only [moved] at kept long stop
    refine ⟨chunk :: before, cut, after, rfl, ?_, long, stop⟩
    intro front part inside
    cases front with
    | nil =>
      obtain ⟨rfl, -⟩ := List.cons_prefix_cons.mp inside
      simpa using fits
    | cons first front =>
      obtain ⟨rfl, rest⟩ := List.cons_prefix_cons.mp inside
      exact kept front part rest

theorem not_cutsOff_nil (pending : Bytes) : ¬CutsOff pending [] := by
  rintro ⟨before, cut, after, parts, -⟩
  simp at parts

section
variable {σ : Type} {answer : σ → Bytes → Bytes × σ}

theorem behind_inj {replies : List Bytes} {first second : List Bytes × Closing} :
    (replies ++ first.1, first.2) = (replies ++ second.1, second.2) ↔ first = second := by
  rw [Prod.mk.injEq, List.append_right_inj, Prod.ext_iff]

theorem serveConnection_from {chunks : List Bytes} (some : ∀ chunk ∈ chunks, chunk ≠ []) (s : σ)
    {pending : Bytes} (small : pending.length ≤ maxMessageSize) :
    serveConnection answer chunks s pending = expectedReplies answer s (pending ++ chunks.flatten) ↔
      ¬CutsOff pending chunks := by
  induction chunks generalizing s pending with
  | nil =>
    have within := (unfinished_length pending).trans small
    have part : unfinished pending ∈ pending.splitOn 0 := by
      rw [splitOn_messages]
      exact List.mem_append_right _ (List.mem_singleton_self _)
    have free := not_mem_of_mem_splitOn part
    have last : ∀ s, expectedReplies answer s (unfinished pending ++ []) = ([], .endOfStream) := by
      intro s
      simp [expectedReplies, messagesOf_free free, List.splitOn_eq_singleton free, answerAll, within]
    rw [serveConnection, drainMessages_eq s le_rfl, List.flatten_nil, expectedReplies_append s small, last]
    simp [not_cutsOff_nil]
  | cons chunk chunks ih =>
    have given : chunk ≠ [] := some chunk List.mem_cons_self
    rw [serveConnection, drainMessages_eq s le_rfl, List.flatten_cons, expectedReplies_append s small,
      ← List.append_assoc]
    simp only [given, if_false]
    by_cases exceeds : maxMessageSize < (unfinished pending ++ chunk).length
    · rw [if_pos exceeds, cutsOff_over exceeds,
        ← expectedReplies_over (answerAll answer s (messagesOf pending)).2 exceeds chunks.flatten]
      have same := (@behind_inj (answerAll answer s (messagesOf pending)).1 ([], Closing.tooLarge)
        (expectedReplies answer (answerAll answer s (messagesOf pending)).2
          (unfinished pending ++ chunk ++ chunks.flatten))).trans eq_comm
      simpa using same
    · rw [if_neg exceeds, cutsOff_within (not_lt.mp exceeds),
        ← ih (fun chunk member => some chunk (List.mem_cons_of_mem _ member)) _ (not_lt.mp exceeds)]
      exact behind_inj

/-- Over every way in which a stream arrives in chunks, the replies are those to the messages before the first
that is too long, unless a chunk that ends a message takes what is held over the limit. -/
theorem serveConnection_replies_iff (answer : σ → Bytes → Bytes × σ) (s : σ) {chunks : List Bytes}
    (some : ∀ chunk ∈ chunks, chunk ≠ []) :
    serveConnection answer chunks s [] = expectedReplies answer s chunks.flatten ↔ ¬CutsOff [] chunks :=
  serveConnection_from some s (Nat.zero_le _)

theorem serveConnection_replies_short :
    serveConnection (fun (_ : Unit) message => (message, ())) [[97], [0, 98, 0, 99]] () [] =
      expectedReplies (fun _ message => (message, ())) () [97, 0, 98, 0, 99] := by
  have whole : ¬CutsOff [] [[97], [0, 98, 0, 99]] := by
    rw [cutsOff_within (by decide), cutsOff_within (by decide)]
    exact not_cutsOff_nil _
  exact (serveConnection_replies_iff _ () (by simp)).mpr whole

theorem serveConnection_held (some : ∀ chunk ∈ front, chunk ≠ []) (rest : List Bytes) (s : σ)
    (free : 0 ∉ pending ++ front.flatten) (fits : (pending ++ front.flatten).length ≤ maxMessageSize) :
    serveConnection answer (front ++ rest) s pending = serveConnection answer rest s (pending ++ front.flatten) := by
  induction front generalizing pending with
  | nil => simp
  | cons chunk front ih =>
    rw [List.flatten_cons, ← List.append_assoc] at free fits
    have given : chunk ≠ [] := some chunk List.mem_cons_self
    have none : 0 ∉ pending := fun member => free (by simp [member])
    have small : ¬maxMessageSize < (pending ++ chunk).length := by
      rw [List.length_append] at fits
      omega
    rw [List.cons_append, serveConnection, drainMessages_eq s le_rfl, messagesOf_free none, unfinished_free none,
      List.flatten_cons, ← List.append_assoc, ← ih (fun chunk member => some chunk (List.mem_cons_of_mem _ member)) free fits]
    simp only [answerAll, given, if_false, if_neg small, List.nil_append]

end

theorem expectedReplies_two (free : 0 ∉ message) (short : message.length ≤ maxMessageSize) :
    expectedReplies (fun (_ : Unit) message => (message, ())) () (message ++ [0, 98, 0]) =
      ([message, [98]], .endOfStream) := by
  have rest : messagesOf [98, 0] = [[98]] ∧ List.splitOn 0 [98, 0] = [[98], ([] : Bytes)] := by decide
  have small : 1 ≤ maxMessageSize := by decide
  simp [expectedReplies, messagesOf_cons free, splitOn_first free, rest, short, small, answerAll]

theorem serveConnection_two (some : ∀ chunk ∈ front, chunk ≠ []) (free : 0 ∉ front.flatten)
    (size : front.flatten.length = maxMessageSize - 1) :
    serveConnection (fun (_ : Unit) message => (message, ())) (front ++ [[0, 98, 0]]) () [] = ([], .tooLarge) := by
  have short : ([] ++ front.flatten).length ≤ maxMessageSize := by
    rw [List.nil_append, size]
    exact Nat.sub_le _ _
  have long : maxMessageSize < (front.flatten ++ [0, 98, 0]).length := by
    rw [List.length_append, size]
    decide
  rw [serveConnection_held some _ () free short, List.nil_append, serveConnection, drainMessages_eq () le_rfl,
    messagesOf_free free, unfinished_free free]
  simp only [answerAll]
  rw [if_neg (by simp), if_pos long]

theorem serveConnection_pipelined :
    serveConnection (fun (_ : Unit) message => (message, ()))
        ((List.replicate 127 (List.replicate 8192 97) ++ [List.replicate 8191 97]) ++ [[0, 98, 0]]) () [] =
      ([], .tooLarge) ∧ expectedReplies (fun (_ : Unit) message => (message, ())) ()
        ((List.replicate 127 (List.replicate 8192 (97 : UInt8)) ++ [List.replicate 8191 97]) ++
          [[0, 98, 0]]).flatten = ([List.replicate (maxMessageSize - 1) 97, [98]], .endOfStream) := by
  have joined : (List.replicate 127 (List.replicate 8192 (97 : UInt8)) ++ [List.replicate 8191 97]).flatten =
      List.replicate (maxMessageSize - 1) 97 := by
    have size : 127 * 8192 + 8191 = maxMessageSize - 1 := by decide
    rw [List.flatten_append, List.flatten_replicate_replicate, List.flatten_singleton, ← List.replicate_add, size]
  have free : 0 ∉ List.replicate (maxMessageSize - 1) (97 : UInt8) := by
    rw [List.mem_replicate]
    decide
  have chunks : ∀ chunk ∈ List.replicate 127 (List.replicate 8192 (97 : UInt8)) ++ [List.replicate 8191 97],
      chunk ≠ [] := by
    intro chunk member
    rcases List.mem_append.mp member with full | last
    · rw [(List.mem_replicate.mp full).2, Ne, List.replicate_eq_nil_iff]
      decide
    · rw [List.mem_singleton.mp last, Ne, List.replicate_eq_nil_iff]
      decide
  -- The long lists are kept from being evaluated.
  generalize List.replicate 127 (List.replicate 8192 (97 : UInt8)) ++ [List.replicate 8191 97] = front at *
  have size : front.flatten.length = maxMessageSize - 1 := by
    rw [joined, List.length_replicate]
  rw [← joined] at free
  refine ⟨serveConnection_two chunks free size, ?_⟩
  rw [List.flatten_append, List.flatten_singleton, ← joined]
  exact expectedReplies_two free (size.le.trans (Nat.sub_le _ _))

end Resolved.Proof.Varlink
