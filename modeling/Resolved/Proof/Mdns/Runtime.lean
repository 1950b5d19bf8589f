import Resolved.Spec.Mdns
import Resolved.Proof.Mdns.Names

/-!
# What a datagram can do to a lookup
-/

namespace Resolved.Proof.Mdns
open Lib Resolved.Wire Resolved.Mdns Spec

variable {question : MdnsQuestion} {collected : Collected} {reception : Reception}

structure Holds (answers others : List RuntimeRecord) (collected : Collected) : Prop where
  answers : ListsSet collected.answers answers
  others : ListsSet collected.additionals others

def inClass (records : List RuntimeRecord) : List RuntimeRecord :=
  records.filter fun record => record.cls &&& dnsClassMask = 1

theorem collectRecords_holds (question : MdnsQuestion) {answers others : List RuntimeRecord} (now : Nat)
    (records : List RuntimeRecord) (keys : ∀ record ∈ records, HasKey record)
    (holds : Holds answers others collected) :
    ∃ after, collectRecords question now records collected = (after, .ok ()) ∧
      Holds (answers ++ (inClass records).filter (recordMatches question))
        (others ++ (inClass records).filter (¬recordMatches question ·)) after ∧
      after.settleDeadline = collected.settleDeadline := by
  induction records generalizing answers others collected with
  | nil => exact ⟨collected, rfl, by simpa [inClass] using holds, rfl⟩
  | cons record rest ih =>
    have later : ∀ record ∈ rest, HasKey record := fun other member => keys other (by simp [member])
    unfold collectRecords
    by_cases cls : record.cls &&& dnsClassMask = 1
    · have key : canonicalWireName record.owner = .ok record.owner := keys record (by simp)
      have named : MdnsRecordKey.new record.interface record.owner record.rrType record.cls =
          .ok ⟨record.interface, record.owner, record.rrType, 1⟩ := by
        simp only [MdnsRecordKey.new, key, ok_bind, cls]
        rfl
      have grown (cache : MdnsCache) : Holds (answers ++ [record]) others { collected with
          answers := sortDedup (record :: collected.answers), cache := cache } :=
        ⟨holds.answers.insert record, holds.others⟩
      have grown' (cache : MdnsCache) : Holds answers (others ++ [record]) { collected with
          additionals := sortDedup (record :: collected.additionals), cache := cache } :=
        ⟨holds.answers, holds.others.insert record⟩
      rw [if_neg (not_not.2 cls), named]
      simp only
      split
      · rename_i answering
        obtain ⟨after, done, held, settle⟩ := ih later (grown _)
        refine ⟨after, done, ?_, settle⟩
        simpa [inClass, cls, answering] using held
      · rename_i other
        obtain ⟨after, done, held, settle⟩ := ih later (grown' _)
        refine ⟨after, done, ?_, settle⟩
        simpa [inClass, cls, other] using held
    · rw [if_pos cls]
      obtain ⟨after, done, holds, settle⟩ := ih later holds
      refine ⟨after, done, ?_, settle⟩
      simpa [inClass, cls] using holds

theorem recordsIn_eq (own : isOwnResponse reception = true)
    (parsed : parseResponseRecords reception.packet reception.interface = .ok records) :
    recordsIn reception = inClass records := by
  unfold recordsIn
  rw [if_pos own, parsed]
  rfl

theorem recordsIn_other (other : isOwnResponse reception = false) : recordsIn reception = [] := by
  unfold recordsIn
  rw [if_neg (by simp [other])]

theorem answersOf_concat (receptions : List Reception) :
    answersOf question (receptions ++ [reception]) =
      answersOf question receptions ++ (recordsIn reception).filter (recordMatches question) := by
  simp [answersOf]

theorem othersOf_concat (receptions : List Reception) :
    othersOf question (receptions ++ [reception]) =
      othersOf question receptions ++ (recordsIn reception).filter (¬recordMatches question ·) := by
  simp [othersOf]

structure Heard (question : MdnsQuestion) (receptions : List Reception) (listening : Listening)
    (collected : Collected) : Prop where
  holds : Holds (answersOf question receptions) (othersOf question receptions) collected
  answered : listening.answered = !(answersOf question receptions).isEmpty
  settle : listening.settleDeadline = collected.settleDeadline

theorem receive_malformed (bad : malformed reception = true) :
    ∃ error, receive question collected reception = (collected, .error error) := by
  simp only [malformed, Bool.and_eq_true] at bad
  unfold receive
  rw [if_pos bad.1]
  cases parsed : parseResponseRecords reception.packet reception.interface with
  | error error => exact ⟨error, rfl⟩
  | ok records =>
    rw [parsed] at bad
    cases bad.2

theorem receive_heard (good : malformed reception = false)
    (heard : Heard question receptions listening collected) :
    ∃ after, receive question collected reception = (after, .ok ()) ∧
      Heard question (receptions ++ [reception]) (listening.after question reception) after := by
  unfold receive Listening.after
  cases own : isOwnResponse reception with
  | false =>
    refine ⟨collected, by simp, ?_, ?_, ?_⟩
    · rw [answersOf_concat, othersOf_concat, recordsIn_other own]
      simpa using heard.holds
    · rw [answersOf_concat, recordsIn_other own]
      simpa using heard.answered
    · simpa using heard.settle
  | true =>
    cases parsed : parseResponseRecords reception.packet reception.interface with
    | error error =>
      simp [malformed, own, parsed, Except.toOption] at good
    | ok records =>
      obtain ⟨after, done, holds, settle⟩ := collectRecords_holds question
        reception.receivedAt records (parseResponseRecords_hasKey parsed) heard.holds
      rw [← recordsIn_eq own parsed, ← answersOf_concat, ← othersOf_concat] at holds
      have answered : (listening.answered || (recordsIn reception).any (recordMatches question)) =
          !(answersOf question (receptions ++ [reception])).isEmpty := by
        rw [heard.answered, answersOf_concat]
        cases answersOf question receptions with
        | nil =>
          rw [Bool.eq_iff_iff]
          simp
        | cons first rest => simp
      simp only [done, if_true, good, not_false_eq_true, and_self, Bool.false_eq_true, answered]
      by_cases none : answersOf question (receptions ++ [reception]) = []
      · refine ⟨after, ?_, holds, ?_, ?_⟩
        · rw [if_neg (by simpa using (holds.answers.eq_nil_iff).2 none)]
        · rfl
        · simp only [none]
          exact heard.settle.trans settle.symm
      · refine ⟨{ after with
            settleDeadline := some (reception.collectedAt + responseSettleTime) }, ?_, ?_, ?_, ?_⟩
        · rw [if_pos (by simpa [holds.answers.eq_nil_iff] using none)]
        · exact ⟨holds.answers, holds.others⟩
        · rfl
        · simp [none]

theorem receiveAll_malformed {receptions : List Reception}
    (bad : ∃ reception ∈ receptions, malformed reception = true) :
    ∃ after error, receiveAll question receptions collected = (after, .error error) := by
  induction receptions generalizing collected with
  | nil => simp at bad
  | cons first rest ih =>
    unfold receiveAll
    cases given : receive question collected first with
    | mk after result =>
      cases result with
      | error error => exact ⟨after, error, rfl⟩
      | ok =>
        apply ih
        obtain ⟨reception, member, bad⟩ := bad
        rcases List.mem_cons.1 member with rfl | later
        · obtain ⟨error, failed⟩ := @receive_malformed question collected _ bad
          rw [failed] at given
          cases given
        · exact ⟨reception, later, bad⟩

theorem receiveAll_heard (good : ∀ reception ∈ receptions, malformed reception = false)
    (heard : Heard question earlier listening collected) :
    ∃ after, receiveAll question receptions collected = (after, .ok ()) ∧ Heard question (earlier ++ receptions)
        (receptions.foldl (Listening.after question) listening) after := by
  induction receptions generalizing earlier listening collected with
  | nil => exact ⟨collected, rfl, by simpa using heard⟩
  | cons first rest ih =>
    obtain ⟨next, given, heard⟩ := receive_heard (good first (by simp)) heard
    obtain ⟨after, done, heard⟩ := ih (fun other member => good other (by simp [member])) heard
    refine ⟨after, ?_, by simpa using heard⟩
    unfold receiveAll
    rw [given]
    exact done

theorem listen_malformed (so_far : Heard question earlier listening collected)
    (bad : ∃ reception ∈ heard question deadline passes listening, malformed reception = true) :
    ∃ after error, listenLoop question deadline passes collected = (after, .error error) := by
  induction passes generalizing earlier listening collected with
  | nil => simp [heard] at bad
  | cons pass rest ih =>
    unfold heard at bad
    unfold listenLoop
    split at bad
    · simp at bad
    rename_i inTime
    rw [if_neg inTime]
    by_cases here : ∃ reception ∈ pass.receptions, malformed reception = true
    · obtain ⟨after, error, failed⟩ := @receiveAll_malformed question collected _ here
      rw [failed]
      exact ⟨after, error, rfl⟩
    · have good : ∀ reception ∈ pass.receptions, malformed reception = false := by
        intro reception member
        exact Bool.eq_false_iff.2 fun bad => here ⟨reception, member, bad⟩
      obtain ⟨after, done, heard⟩ := receiveAll_heard good so_far
      obtain ⟨reception, member, bad⟩ := bad
      rw [done]
      simp only [← heard.settle]
      simp only at member
      split at member
      · rw [List.append_nil] at member
        exact absurd ⟨reception, member, bad⟩ here
      · rename_i unsettled
        rw [if_neg unsettled]
        rcases List.mem_append.1 member with first | later
        · exact absurd ⟨reception, first, bad⟩ here
        · exact ih heard ⟨reception, later, bad⟩

theorem listen_heard (so_far : Heard question earlier listening collected)
    (good : ∀ reception ∈ heard question deadline passes listening, malformed reception = false) :
    ∃ after, listenLoop question deadline passes collected = (after, .ok ()) ∧
      listenLoop question deadline (skipping passes) collected = (after, .ok ()) ∧
      Holds (answersOf question (earlier ++ heard question deadline passes listening))
        (othersOf question (earlier ++ heard question deadline passes listening)) after := by
  induction passes generalizing earlier listening collected with
  | nil => exact ⟨collected, rfl, rfl, by simpa [heard] using so_far.holds⟩
  | cons pass rest ih =>
    unfold heard at good
    unfold heard listenLoop skipping
    rw [List.map_cons]
    split at good
    · rename_i late
      simp only [if_pos late]
      exact ⟨collected, rfl, rfl, by simpa using so_far.holds⟩
    rename_i inTime
    have here : ∀ reception ∈ pass.receptions, malformed reception = false :=
      fun reception member => good reception (List.mem_append_left _ member)
    have kept : pass.receptions.filter (¬malformed ·) = pass.receptions := by
      apply List.filter_eq_self.2
      intro reception member
      simp [here reception member]
    obtain ⟨after, done, heard'⟩ := receiveAll_heard here so_far
    simp only [if_neg inTime, kept, done, ← heard'.settle]
    split
    · rename_i settled
      exact ⟨after, rfl, rfl, by simpa using heard'.holds⟩
    · rename_i unsettled
      obtain ⟨final, whole, skipped, holds⟩ := ih heard' fun reception member =>
        good reception (List.mem_append_right _ (by rwa [if_neg unsettled]))
      refine ⟨final, whole, skipped, ?_⟩
      rwa [← List.append_assoc]

theorem recordBytes_ok (record : RuntimeRecord) :
    (∃ octets, recordBytes record = .ok octets) ↔ record.rdata.length ≤ 65535 := by
  unfold recordBytes
  split
  · exact ⟨nofun, fun short => by omega⟩
  · exact ⟨fun _ => by omega, fun _ => ⟨_, rfl⟩⟩

theorem mapM_recordBytes_ok (records : List RuntimeRecord) :
    (∃ parts, records.mapM recordBytes = .ok parts) ↔ ∀ record ∈ records, record.rdata.length ≤ 65535 := by
  induction records with
  | nil => simp [pure, Except.pure]
  | cons record rest ih =>
    rw [List.forall_mem_cons, ← ih, ← recordBytes_ok]
    simp only [List.mapM_cons, bind_eq_ok, pure_eq_ok]
    constructor
    · rintro ⟨_, octets, first, parts, later, -⟩
      exact ⟨⟨octets, first⟩, parts, later⟩
    · rintro ⟨⟨octets, first⟩, parts, later⟩
      exact ⟨_, octets, first, parts, later, rfl⟩

theorem buildStubResponse_ok {answers others values additionals : List RuntimeRecord}
    (all : ∀ record ∈ answers, recordMatches question record = true) (listed : ListsSet values answers)
    (listed' : ListsSet additionals others) :
    (∃ response, buildStubResponse question values additionals = .ok response) ↔ FitsResponse answers others := by
  have kept : values.filter (recordMatches question) = values := by
    apply List.filter_eq_self.2
    intro record member
    exact all record ((listed.same record).1 member)
  have data : (∀ record ∈ values ++ additionals, record.rdata.length ≤ 65535) ↔
      ∀ record ∈ answers ++ others, record.rdata.length ≤ 65535 := by
    simp only [List.mem_append, listed.same, listed'.same]
  unfold buildStubResponse
  simp only [kept, listed.sortDedup_eq]
  split
  · rename_i many
    rw [listed.length_eq, listed'.length_eq] at many
    refine ⟨nofun, fun fits => ?_⟩
    have := fits.fewAnswers
    have := fits.fewOthers
    omega
  · rename_i few
    rw [listed.length_eq, listed'.length_eq] at few
    have build : (∃ response, (do
        let records ← (values ++ additionals).mapM recordBytes
        let output := toBe16 question.id ++
          toBe16 (flagQr ||| flagAa ||| flagRa ||| (question.flags &&& flagRd)) ++ toBe16 1 ++
          toBe16 values.length ++ toBe16 0 ++ toBe16 additionals.length ++ question.raw ++ records.flatten
        if output.length > 65535 then
          return (overwrite output 2 (toBe16 (flagQr ||| flagAa ||| flagRa |||
            (question.flags &&& flagRd) ||| flagTc))).take 1232
        else return output) = (.ok response : MResult Bytes)) ↔
        ∃ parts, (values ++ additionals).mapM recordBytes = .ok parts := by
      constructor
      · rintro ⟨response, built⟩
        obtain ⟨parts, done, -⟩ := bind_eq_ok.1 built
        exact ⟨parts, done⟩
      · rintro ⟨parts, done⟩
        rw [done, ok_bind]
        simp only
        split <;> exact ⟨_, rfl⟩
    rw [build, mapM_recordBytes_ok, data]
    exact ⟨fun short => ⟨by omega, by omega, short⟩, fun fits => fits.shortData⟩

theorem listenLoop_silent (deadline : Nat) (passes : List Pass) (cache : MdnsCache) :
    listenLoop question deadline (silent passes) ⟨[], [], none, cache⟩ = (⟨[], [], none, cache⟩, .ok ()) := by
  induction passes with
  | nil => rfl
  | cons pass rest ih =>
    unfold silent listenLoop
    rw [List.map_cons]
    simp only [receiveAll, Option.any_none, Bool.false_eq_true, if_false]
    split
    · rfl
    · exact ih

theorem answersOf_matches (receptions : List Reception) :
    ∀ record ∈ answersOf question receptions, recordMatches question record = true :=
  fun _ member => (List.mem_filter.1 member).2

theorem respond_ok {answers others : List RuntimeRecord} (holds : Holds answers others collected)
    (all : ∀ record ∈ answers, recordMatches question record = true) :
    (∀ error, (if collected.answers = [] then (.ok none, collected.cache)
        else ((buildStubResponse question collected.answers collected.additionals).map some,
          collected.cache) : MResult (Option Bytes) × MdnsCache).1 ≠ .error error) ↔
      answers = [] ∨ FitsResponse answers others := by
  rw [← holds.answers.eq_nil_iff, ← buildStubResponse_ok all holds.answers holds.others]
  split
  · simp_all
  · rename_i some
    cases buildStubResponse question collected.answers collected.additionals with
    | error error | ok response => simp [some, Except.map]

/-- For every query and whatever arrives: the lookup takes no harm from a datagram, exactly when each
datagram that passes for a response before the time is over can be read to the end, and the records
have room in one response. -/
theorem queryRaw_robust_iff (world : MdnsWorld) (query : Bytes) (requestedIfindex : Option Int) (timeout : Nat)
    (cache : MdnsCache) :
    Robust world query requestedIfindex timeout cache ↔
      ∀ question cache', prepare world query requestedIfindex cache = (.ok (.inr question), cache') →
        GoodNeighbours question (heard question (world.startedAt + max (min timeout 5000) 250)
          world.passes ⟨false, none⟩) := by
  have same (passes : List Pass) : prepare { world with passes := passes } query requestedIfindex
      cache = prepare world query requestedIfindex cache := rfl
  cases prepared : prepare world query requestedIfindex cache with
  | mk result cache' =>
  match result with
  | .error error => refine ⟨nofun, fun _ => ⟨?_, fun _ _ => ?_⟩⟩ <;> simp_all [queryRaw]
  | .ok (.inl response) => refine ⟨nofun, fun _ => ⟨?_, fun _ _ => ?_⟩⟩ <;> simp_all [queryRaw]
  | .ok (.inr question) =>
    have start : Heard question [] ⟨false, none⟩ ⟨[], [], none, cache'⟩ :=
      ⟨⟨.nil, .nil⟩, rfl, rfl⟩
    have quiet : (queryRaw { world with passes := silent world.passes } query
        requestedIfindex timeout cache).1 = .ok none := by
      simp only [queryRaw, same, prepared, listenLoop_silent, if_true]
    constructor
    · rintro ⟨-, blameless⟩ _ _ ⟨⟩
      have never : ∀ error, (queryRaw world query requestedIfindex timeout cache).1 ≠
          .error error := by
        intro error failed
        rw [blameless error failed] at quiet
        cases quiet
      simp only [queryRaw, prepared] at never
      have good : ∀ reception ∈ heard question (world.startedAt + max (min timeout 5000) 250)
          world.passes ⟨false, none⟩, malformed reception = false := by
        intro reception member
        by_contra bad
        obtain ⟨after, error, failed⟩ := listen_malformed start
          ⟨reception, member, by simpa using bad⟩
        rw [failed] at never
        exact never error rfl
      obtain ⟨after, done, -, holds⟩ := listen_heard start good
      rw [List.nil_append] at holds
      rw [done] at never
      exact ⟨good, (respond_ok holds (answersOf_matches _)).1 never⟩
    · intro neighbours
      obtain ⟨good, fits⟩ := neighbours question cache' rfl
      obtain ⟨after, done, skipped, holds⟩ := listen_heard start good
      rw [List.nil_append] at holds
      have never := (respond_ok holds (answersOf_matches _)).2 fits
      constructor
      · simp only [queryRaw, same, prepared, done, skipped]
      · intro error failed
        simp only [queryRaw, prepared, done] at failed
        exact absurd failed (never error)

def oneInterface (packets : List Bytes) : MdnsWorld where
  enabled := true
  interfaces := .ok [⟨2, .ipv4⟩]
  sockets := .ok
  sent := .ok ()
  cachedAt := 0
  startedAt := 0
  passes := [⟨0, packets.map fun packet => ⟨⟨2, .ipv4⟩, packet, ⟨.v4 ⟨192, 0, 2, 9⟩ mdnsPort,
    .v4 mdnsIpv4Multicast mdnsPort, some 2, some 255, true⟩, 1, 1⟩, 2⟩]

def addressQuery : Bytes :=
  [18, 52, 1, 0, 0, 1, 0, 0, 0, 0, 0, 0, 1, 97, 5, 108, 111, 99, 97, 108, 0, 0, 1, 0, 1]

def addressResponse : Bytes :=
  [0, 0, 132, 0, 0, 0, 0, 1, 0, 0, 0, 0, 1, 97, 5, 108, 111, 99, 97, 108, 0, 0, 1, 128, 1,
    0, 0, 0, 120, 0, 4, 192, 0, 2, 7]

def trailingResponse : Bytes :=
  [0, 0, 132, 0, 0, 0, 0, 1, 0, 0, 0, 0, 0, 0, 12, 0, 1, 0, 0, 0, 120, 0, 2, 0, 0]

theorem queryRaw_robust_address : Robust (oneInterface [[0], addressResponse]) addressQuery none 1000 .new := by
  apply (queryRaw_robust_iff _ addressQuery none 1000 .new).2
  intro question cache' prepared
  have asked : (prepare (oneInterface [[0], addressResponse]) addressQuery none .new).1 =
      .ok (.inr ⟨4660, 256, [1, 97, 5, 108, 111, 99, 97, 108, 0], [97, 46, 108, 111, 99, 97, 108, 46], 1, 1,
        [1, 97, 5, 108, 111, 99, 97, 108, 0, 0, 1, 0, 1]⟩) := by decide
  rw [prepared] at asked
  cases asked
  refine ⟨by decide, .inr ⟨by decide, by decide, by decide⟩⟩

theorem queryRaw_fails_trailing :
    (queryRaw (oneInterface [trailingResponse, addressResponse]) addressQuery none 1000 .new).1 =
        .error (.invalidResponse "trailing name record data") ∧
      ((queryRaw (oneInterface [addressResponse]) addressQuery none 1000 .new).1.toOption.any (·.isSome)) = true ∧
      ¬Robust (oneInterface [trailingResponse, addressResponse]) addressQuery none 1000 .new := by
  have fails : (queryRaw (oneInterface [trailingResponse, addressResponse]) addressQuery none 1000
      .new).1 = .error (.invalidResponse "trailing name record data") := by decide
  refine ⟨fails, by decide, fun robust => ?_⟩
  have quiet := robust.blameless _ fails
  have answered : (queryRaw { oneInterface [trailingResponse, addressResponse] with
      passes := silent (oneInterface [trailingResponse, addressResponse]).passes } addressQuery none
      1000 .new).1 = .ok none := by decide
  rw [answered] at quiet
  cases quiet

end Resolved.Proof.Mdns
