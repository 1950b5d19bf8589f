import Resolved.Spec.Hyper
import Resolved.Proof.Wire.Frame
import Resolved.Proof.Wire.NameIn

/-!
# The responses that are used
-/

namespace Resolved.Proof.Hyper
open Lib Resolved.Wire Resolved.Hyper Spec Resolved.Proof.Wire

variable {id qtype qclass : UInt16} {raw : Bytes} {cfg : HyperConfig} {round : Round}
  {name : NameKey} {won : Won} {key : CacheKey}

theorem withId_query (id other qtype qclass : UInt16) (name : NameKey) :
    withId (query other name qtype qclass) id = query id name qtype qclass := by
  simp [withId, query, toBe16, overwrite]

theorem idPasses_iff (long : 2 ≤ raw.length) : idPasses id raw = true ↔ raw.take 2 = toBe16 id.toNat := by
  match raw with
  | [] | [_] => simp at long
  | a :: b :: rest =>
    simp only [idPasses, decide_eq_true_eq, List.take_succ_cons, List.take_zero]
    constructor
    · intro same
      rw [← same]
      have := a.toNat_lt
      have := b.toNat_lt
      simp only [toBe16, be16, List.cons.injEq, and_true]
      constructor
      · apply UInt8.toNat.inj
        simp
        omega
      · apply UInt8.toNat.inj
        simp
    · intro same
      cases same
      exact be16_toBe16 id.toNat id.toNat_lt

theorem isResponse_iff (up : Upstream) (long : dnsHeaderLen ≤ raw.length) :
    isResponse raw up = .ok () ↔ raw.getD 2 0 &&& 0x80 ≠ 0 := by
  unfold isResponse
  rw [if_neg (Nat.not_lt.2 long)]
  split <;> simp_all

theorem attemptItem_eq_ok {up : Upstream} {packet : PacketView} :
    attemptItem isResponse up id raw = .ok packet ↔
      packet.raw = raw ∧ raw.take 2 = toBe16 id.toNat ∧ raw.getD 2 0 &&& 0x80 ≠ 0 := by
  unfold attemptItem PacketView.new
  by_cases long : dnsHeaderLen ≤ raw.length
  · have two : 2 ≤ raw.length := Nat.le_trans (by decide) long
    rw [← idPasses_iff two, ← isResponse_iff up long]
    split
    · rename_i passes
      simp only [ok_bind, bind_eq_ok, pure_eq_ok, passes, true_and]
      constructor
      · rintro ⟨_, taken, rfl⟩
        exact ⟨rfl, taken⟩
      · rintro ⟨same, taken⟩
        refine ⟨(), taken, ?_⟩
        cases packet
        cases same
        rfl
    · simp_all
  · rw [dif_neg long]
    constructor
    · split <;> intro impossible <;> cases impossible
    · rintro ⟨rfl, -⟩
      exact absurd packet.header long

theorem collect_eq_ok (done : collect overall timedOut lastErr items = .ok won) : .ok won ∈ items := by
  induction items generalizing lastErr with
  | nil => cases done
  | cons item rest ih =>
    unfold collect at done
    match item with
    | .ok first =>
      cases done
      exact List.mem_cons_self
    | .error error =>
      apply List.mem_cons_of_mem
      cases error <;> exact ih done

theorem race_eq_ok (done : race cfg round (query id name qtype qclass) = .ok won) :
    cfg.k ≠ 0 ∧ ∃ task id, won.sent = query id name qtype qclass ∧
      round.exchange task won.up won.sent = .ok won.packet.raw ∧
      won.packet.raw.take 2 = won.sent.take 2 ∧ won.packet.raw.getD 2 0 &&& 0x80 ≠ 0 := by
  unfold race at done
  simp only at done
  split at done
  · cases done
  rename_i raced
  refine ⟨fun none => raced (by simp [ranked, none]), ?_⟩
  obtain ⟨task, -, found⟩ := List.mem_filterMap.1 (collect_eq_ok done)
  obtain ⟨up, -, item⟩ := Option.map_eq_some_iff.1 found
  unfold taskItem at item
  rw [withId_query] at item
  simp only [bind_eq_ok, pure_eq_ok] at item
  obtain ⟨raw, replied, packet, taken, rfl⟩ := item
  obtain ⟨rfl, same, response⟩ := attemptItem_eq_ok.1 taken
  exact ⟨task, round.ids task, rfl, replied, same, response⟩

theorem rcode_eq (packet : PacketView) : packet.rcode = u16At packet.raw 2 &&& 0x000f := by
  have long := packet.header
  unfold dnsHeaderLen at long
  simp only [PacketView.rcode, PacketView.flags, PacketView.field, u16At, List.get_eq_getElem]
  rw [List.getD_eq_getElem _ _ (by omega), List.getD_eq_getElem _ _ (by omega)]

theorem new_raw (packet : PacketView) : PacketView.new packet.raw = .ok packet := by
  unfold PacketView.new
  rw [dif_pos packet.header]

theorem leadTurn_eq_ok {current : NameKey} {next : NameKey ⊕ RrMeta}
    (done : leadTurn cfg key round current = .ok (won, next)) :
    cfg.k ≠ 0 ∧ ∃ task id target, won.sent = query id current key.qtype key.qclass ∧
      round.exchange task won.up won.sent = .ok won.packet.raw ∧
      UsableResponse current key.qtype won.sent won.packet.raw target ∧
      (∀ further, next = .inl further → target = some further) ∧
      ∀ found, next = .inr found → target = none ∧ found.answer = won.packet.raw := by
  unfold leadTurn at done
  obtain ⟨first, raced, done⟩ := bind_eq_ok.1 done
  obtain ⟨raw, copied, done⟩ := bind_eq_ok.1 done
  unfold copyFrom at copied
  split at copied
  · cases copied
  rename_i room
  cases copied
  rw [new_raw, ok_bind] at done
  obtain ⟨state, -, done⟩ := bind_eq_ok.1 done
  obtain ⟨asks, task, id, sent, replied, same, response⟩ := race_eq_ok raced
  have usable : ∀ target, (if key.qtype.toNat ≠ typeCname ∧
        u16At first.packet.raw 2 &&& 0x000f = rcodeNoerror then
        extractCnameTarget first.packet.raw current = .ok target
      else target = none) → UsableResponse current key.qtype first.sent first.packet.raw target :=
    fun _ searched => ⟨first.packet.header, Nat.le_of_not_lt room, same, response, searched⟩
  rw [← rcode_eq] at usable
  split at done
  · rename_i plain
    obtain ⟨target, searched, done⟩ := bind_eq_ok.1 done
    have usable := usable target (by rw [if_pos plain]; exact searched)
    cases target with
    | some further =>
      cases done
      refine ⟨asks, task, id, _, sent, replied, usable, ?_, nofun⟩
      rintro _ ⟨⟩
      rfl
    | none =>
      cases done
      refine ⟨asks, task, id, _, sent, replied, usable, nofun, ?_⟩
      rintro _ ⟨⟩
      exact ⟨rfl, rfl⟩
  · rename_i unsearched
    cases done
    refine ⟨asks, task, id, none, sent, replied, usable none (if_neg unsearched ▸ rfl),
      nofun, ?_⟩
    rintro _ ⟨⟩
    exact ⟨rfl, rfl⟩

def answering (up : Upstream) (id : UInt16) (sent raw : Bytes) : Round where
  upstreams := [up]
  scores := []
  templateId := 0
  ids := fun _ => id
  exchange := fun _ other query => if other = up ∧ query = sent then .ok raw else .error .cancelled
  arrivals := [0]
  timedOut := false
  dnssec := fun _ _ _ => .ok .indeterminate
  now := 0

theorem race_answering {target : Option NameKey} (asks : cfg.k ≠ 0) (up : Upstream)
    (id template qtype qclass : UInt16) (name : NameKey)
    (usable : UsableResponse name qtype (query id name qtype qclass) raw target) :
    race cfg (answering up id (query id name qtype qclass) raw) (query template name qtype qclass) =
      .ok ⟨up, query id name qtype qclass, ⟨raw, usable.header⟩⟩ := by
  have one : ranked cfg.k [up] [] = [up] := by
    obtain ⟨k, positive⟩ := Nat.exists_eq_succ_of_ne_zero asks
    simp [ranked, positive]
  have taken : attemptItem isResponse up id raw = .ok ⟨raw, usable.header⟩ :=
    attemptItem_eq_ok.2 ⟨rfl, usable.id, usable.response⟩
  have item : taskItem (answering up id (query id name qtype qclass) raw) (query template name qtype qclass)
      0 up = .ok ⟨up, query id name qtype qclass, ⟨raw, usable.header⟩⟩ := by
    unfold taskItem answering
    simp only [withId_query, and_self, if_true, ok_bind, taken]
    rfl
  unfold race
  simp only [answering, one] at item ⊢
  simp [item, collect, onItem]

theorem leadTurn_answering {target : Option NameKey} (asks : cfg.k ≠ 0) (up : Upstream) (id : UInt16)
    (key : CacheKey) (current : NameKey)
    (usable : UsableResponse current key.qtype (query id current key.qtype key.qclass) raw target) :
    leadTurn cfg key (answering up id (query id current key.qtype key.qclass) raw) current =
      .ok (⟨up, query id current key.qtype key.qclass, ⟨raw, usable.header⟩⟩,
        target.elim (.inr (rrMeta cfg 0 ⟨raw, usable.header⟩ .indeterminate)) .inl) := by
  have raced := fun template =>
    race_answering asks up id template key.qtype key.qclass current usable
  have room : copyFrom raw = .ok raw := if_neg (Nat.not_lt.2 usable.room)
  have view : PacketView.new raw = .ok ⟨raw, usable.header⟩ := dif_pos usable.header
  have searched := usable.searched
  rw [← rcode_eq ⟨raw, usable.header⟩] at searched
  have verdict : (answering up id (query id current key.qtype key.qclass) raw).dnssec current
      key.qtype ⟨raw, usable.header⟩ = .ok .indeterminate := rfl
  unfold leadTurn
  simp only [raced, ok_bind, room, view, verdict]
  split at searched
  · rename_i plain
    rw [if_pos plain, searched, ok_bind]
    cases target <;> rfl
  · rename_i other
    rw [if_neg other]
    subst searched
    rfl

theorem parseQuestion_behind {header rest : Bytes} (size : header.length = dnsHeaderLen) :
    ∃ question, parseQuestion (header ++ (name.wire ++ (toBe16 qtype.toNat ++
        (toBe16 qclass.toNat ++ rest)))) dnsHeaderLen = .ok question ∧
      question.name.canonicalWire = name.wire ∧ question.rrType = qtype.toNat ∧ question.cls = qclass.toNat := by
  obtain ⟨labels, legal, spelled⟩ := name.named
  have legal := legalName_lowered legal
  rw [spelled]
  have part := slice_middle header (wireOf (lowered labels))
    (toBe16 qtype.toNat ++ (toBe16 qclass.toNat ++ rest))
  have type := slice_middle (header ++ wireOf (lowered labels)) (toBe16 qtype.toNat)
    (toBe16 qclass.toNat ++ rest)
  have cls := slice_middle (header ++ wireOf (lowered labels) ++ toBe16 qtype.toNat)
    (toBe16 qclass.toNat) rest
  simp only [List.append_assoc, List.length_append, toBe16_length, size, ← Nat.add_assoc]
    at part type cls
  have read := readName_of_nameIn (nameIn_of_wire legal.sizes part) (Nat.zero_le _) legal
  refine ⟨⟨nameWith (lowered labels), qtype.toNat, qclass.toNat, _⟩,
    parseQuestion_eq_ok.2 ⟨_, read, ?_, ?_, rfl⟩, ?_, rfl, rfl⟩
  · exact readU16_of_slice qtype.toNat_lt type
  · exact readU16_of_slice qclass.toNat_lt cls
  · simp only [nameWith, lowered_idem]

theorem query_question (id qtype qclass : UInt16) (name : NameKey) :
    ∃ question, parseQuestion (query id name qtype qclass) dnsHeaderLen = .ok question ∧
      question.name.canonicalWire = name.wire ∧ question.rrType = qtype.toNat ∧ question.cls = qclass.toNat := by
  obtain ⟨question, parsed, same⟩ := @parseQuestion_behind qtype qclass name
    (toBe16 id.toNat ++ [1, 0, 0, 1, 0, 0, 0, 0, 0, 1]) [0, 0, 41, 4, 208, 0, 0, 128, 0, 0, 0] rfl
  refine ⟨question, ?_, same⟩
  rw [← parsed]
  simp [query, toBe16, toBe32, typeOpt, dnsMaxUdp]

theorem echoesQuestion_iff :
    EchoesQuestion (query id name qtype qclass) raw ↔
      readU16 raw 4 = .ok 1 ∧ ∃ question, parseQuestion raw dnsHeaderLen = .ok question ∧
        question.name.canonicalWire = name.wire ∧ question.rrType = qtype.toNat ∧ question.cls = qclass.toNat := by
  obtain ⟨asked, parsed, wire, type, cls⟩ := query_question id qtype qclass name
  rw [← wire, ← type, ← cls]
  constructor
  · rintro ⟨single, asked', question, parsed', read, same⟩
    cases parsed.symm.trans parsed'
    exact ⟨single, question, read, same⟩
  · rintro ⟨single, question, read, same⟩
    exact ⟨single, asked, question, parsed, read, same⟩

theorem leadLoop_usesAnswers {transport : TransportBehaviour} {rounds : Nat → Round}
    (honest : cfg.k = 0 ∨ ∀ up id name qtype qclass raw target, transport up (query id name qtype qclass) raw →
      UsableResponse name qtype (query id name qtype qclass) raw target →
      EchoesQuestion (query id name qtype qclass) raw ∧ EndsNoAlias transport name qtype qclass target)
    (delivers : Delivers transport rounds) (left : Nat) (current : NameKey) (chain : List NameKey)
    (arrived : current = key.name ∨ ∃ previous ∈ chain,
      EndsNoAlias transport previous key.qtype key.qclass (some current)) :
    UsesAnswers (leadLoop cfg key rounds left current chain) := by
  induction left generalizing current chain with
  | zero => simp [leadLoop, UsesAnswers]
  | succ left ih =>
    unfold leadLoop
    split
    · simp [UsesAnswers]
    rename_i fresh
    split
    · simp [UsesAnswers]
    · rename_i won further turn
      obtain ⟨asks, task, id, target, sent, replied, usable, next, -⟩ := leadTurn_eq_ok turn
      cases next further rfl
      have reply := delivers _ _ _ _ _ replied
      rw [sent] at reply usable
      obtain ⟨echoes, ends⟩ := honest.resolve_left asks _ _ _ _ _ _ _ reply usable
      obtain ⟨used, stored⟩ := ih further (chain ++ [current]) (.inr ⟨current, by simp, ends⟩)
      refine ⟨?_, stored⟩
      rintro other (_ | ⟨_, later⟩)
      · rw [AnswersQuery, sent]
        exact ⟨usable.id, echoes⟩
      · exact used other later
    · rename_i won found turn
      obtain ⟨asks, task, id, target, sent, replied, usable, -, last⟩ := leadTurn_eq_ok turn
      obtain ⟨rfl, answer⟩ := last found rfl
      have reply := delivers _ _ _ _ _ replied
      rw [sent] at reply usable
      obtain ⟨echoes, -⟩ := honest.resolve_left asks _ _ _ _ _ _ _ reply usable
      rcases arrived with rfl | ⟨previous, earlier, ends⟩
      · constructor
        · intro other member
          rw [List.mem_singleton.1 member, AnswersQuery, sent]
          exact ⟨usable.id, echoes⟩
        · intro entry member
          simp only [ne_eq, not_true_eq_false, if_false, List.mem_singleton] at member
          rw [member, answer]
          exact echoesQuestion_iff.2 (echoesQuestion_iff.1 echoes)
      · exact absurd usable (ends current rfl (fun same => fresh (same ▸ earlier)) _ _ _ reply)

theorem delivers_answering {transport : TransportBehaviour} {up : Upstream} {sent : Bytes}
    (replies : transport up sent raw) (task : Nat) (other : Upstream) (asked packet : Bytes)
    (replied : (answering up id sent raw).exchange task other asked = .ok packet) :
    transport other asked packet := by
  simp only [answering] at replied
  split at replied
  · rename_i same
    cases replied
    rw [same.1, same.2]
    exact replies
  · cases replied

/-- For every behaviour of the transport: each packet that `resolve_lead` uses has the id and the
question of the query its upstream was sent, and is stored for that question only, exactly when each
reply that is usable by its header has that question and no CNAME leads to a last reply. -/
theorem lead_answers_iff (cfg : HyperConfig) (transport : TransportBehaviour) :
    (∀ key rounds, Delivers transport rounds → UsesAnswers (resolveLead cfg key rounds)) ↔
      cfg.k = 0 ∨ ∀ up id name qtype qclass raw target, transport up (query id name qtype qclass) raw →
        UsableResponse name qtype (query id name qtype qclass) raw target →
        EchoesQuestion (query id name qtype qclass) raw ∧ EndsNoAlias transport name qtype qclass target := by
  constructor
  · intro sound
    by_cases none : cfg.k = 0
    · exact .inl none
    refine .inr fun up id name qtype qclass raw target replies usable => ?_
    let key : CacheKey := ⟨name, qtype, qclass, false⟩
    have turn := leadTurn_answering none up id key name usable
    constructor
    · have used := (sound key (fun _ => answering up id (query id name qtype qclass) raw)
        fun _ => delivers_answering replies).1 ⟨up, query id name qtype qclass, ⟨raw, usable.header⟩⟩
      refine (used ?_).2
      unfold resolveLead leadLoop
      rw [if_neg List.not_mem_nil, turn]
      cases target <;> exact List.mem_cons_self
    · rintro current rfl other up' id' raw' replies' usable'
      -- The first reply leads to `current`, and the second is stored for both names.
      let rounds (n : Nat) : Round :=
        if n = 0 then answering up id (query id name qtype qclass) raw
        else answering up' id' (query id' current qtype qclass) raw'
      have delivers : Delivers transport rounds := by
        intro n
        cases n with
        | zero => exact delivers_answering replies
        | succ n => exact delivers_answering replies'
      have turn' := leadTurn_answering none up' id' key current usable'
      obtain ⟨used, stored⟩ := sound key rounds delivers
      have run : resolveLead cfg key rounds = ⟨.ok (rrMeta cfg 0 ⟨raw', usable'.header⟩ .indeterminate),
          [⟨up, query id name qtype qclass, ⟨raw, usable.header⟩⟩,
            ⟨up', query id' current qtype qclass, ⟨raw', usable'.header⟩⟩],
          [(key, rrMeta cfg 0 ⟨raw', usable'.header⟩ .indeterminate),
            ({ key with name := current }, rrMeta cfg 0 ⟨raw', usable'.header⟩ .indeterminate)]⟩ := by
        change leadLoop cfg key rounds (15 + 1 + 1) name [] = _
        rw [leadLoop, if_neg List.not_mem_nil,
          show leadTurn cfg key (rounds (dnsMaxCnameDepth - (15 + 1))) name = _ from turn]
        simp only [Option.elim]
        rw [leadLoop, if_neg (by simpa using other),
          show leadTurn cfg key (rounds (dnsMaxCnameDepth - 15)) current = _ from turn']
        simp [key, other]
      rw [run] at used stored
      obtain ⟨-, question, parsed, wire, -⟩ := echoesQuestion_iff.1 (stored _ List.mem_cons_self)
      obtain ⟨-, question', parsed', wire', -⟩ :=
        echoesQuestion_iff.1 (used _ (List.mem_cons_of_mem _ List.mem_cons_self)).2
      cases parsed.symm.trans parsed'
      cases current
      exact other ((NameKey.mk.injEq ..).mpr (wire'.symm.trans wire))
  · intro honest key rounds delivers
    exact leadLoop_usesAnswers honest delivers _ _ _ (.inl rfl)

def echoed (sent : Bytes) : Bytes := overwrite sent 2 [0x81]

theorem echoesQuestion_echoed (id qtype qclass : UInt16) (name : NameKey) :
    EchoesQuestion (query id name qtype qclass) (echoed (query id name qtype qclass)) := by
  obtain ⟨question, parsed, same⟩ := @parseQuestion_behind qtype qclass name
    (toBe16 id.toNat ++ [0x81, 0, 0, 1, 0, 0, 0, 0, 0, 1]) [0, 0, 41, 4, 208, 0, 0, 128, 0, 0, 0] rfl
  refine echoesQuestion_iff.2 ⟨?_, question, ?_, same⟩
  · apply readU16_eq_ok.2
    exact ⟨0, 1, by simp [echoed, query, toBe16, overwrite], by simp [echoed, query, toBe16, overwrite], rfl⟩
  · rw [← parsed]
    simp [echoed, query, toBe16, toBe32, typeOpt, dnsMaxUdp, overwrite]

theorem extractCnameTarget_echoed {owner : NameKey} {target : Option NameKey}
    (searched : extractCnameTarget (echoed (query id name qtype qclass)) owner = .ok target) : target = none := by
  have none : u16At (echoed (query id name qtype qclass)) 6 = 0 := by
    simp [u16At, be16, echoed, query, toBe16, overwrite]
  unfold extractCnameTarget at searched
  split at searched
  · cases searched
    rfl
  · obtain ⟨off, -, found⟩ := bind_eq_ok.1 searched
    rw [none] at found
    cases found
    rfl

def defaultConfig : HyperConfig := ⟨.allowDowngrade, 3, 5000, 1800000, 86400000, 30000⟩

def upstream : Upstream := ⟨1, .v4 ⟨192, 0, 2, 1⟩ 53⟩

def rootServers : CacheKey := ⟨⟨[0], root_named⟩, 2, 1, false⟩

theorem lead_answers_echo :
    (∀ key rounds, Delivers (fun _ sent raw => raw = echoed sent) rounds →
      UsesAnswers (resolveLead defaultConfig key rounds)) ∧
      (resolveLead defaultConfig rootServers fun _ => answering upstream 7
        (query 7 rootServers.name 2 1) (echoed (query 7 rootServers.name 2 1))).puts.length = 1 := by
  refine ⟨(lead_answers_iff defaultConfig _).2 (.inr ?_), by decide⟩
  intro up id name qtype qclass raw target replies usable
  subst replies
  refine ⟨echoesQuestion_echoed id qtype qclass name, ?_⟩
  rintro current rfl
  have searched := usable.searched
  split at searched
  · cases extractCnameTarget_echoed searched
  · cases searched

def otherAnswer : Bytes := [0, 7, 0x81, 0, 0, 1, 0, 0, 0, 0, 0, 0, 0, 0, 1, 0, 1]

theorem lead_stores_other_answer :
    let run := resolveLead defaultConfig rootServers fun _ =>
      answering upstream 7 (query 7 rootServers.name 2 1) otherAnswer
    (∃ won ∈ run.accepted, won.sent = query 7 rootServers.name 2 1 ∧ ¬AnswersQuery won.sent won.packet.raw) ∧
      run.puts.map (fun entry => (entry.1, entry.2.answer)) = [(rootServers, otherAnswer)] := by
  refine ⟨⟨⟨upstream, query 7 rootServers.name 2 1, otherAnswer, by decide⟩, by decide, rfl, ?_⟩, by decide⟩
  rintro ⟨-, -, asked, question, parsed, parsed', -, type, -⟩
  have sent : (parseQuestion (query 7 rootServers.name 2 1) dnsHeaderLen).map (·.rrType) = .ok 2 := by
    decide
  have given : (parseQuestion otherAnswer dnsHeaderLen).map (·.rrType) = .ok 1 := by
    decide
  rw [parsed] at sent
  rw [parsed'] at given
  have two : asked.rrType = 2 := Except.ok.inj sent
  have one : question.rrType = 1 := Except.ok.inj given
  omega

end Resolved.Proof.Hyper
