import DominionSilver.Spec.Payload
import DominionSilver.Library.Formats
import DominionSilver.Proofs.Prints

/-! The payloads that the parser accepts are exactly the encodings of payloads in which one feed is
the target and carries what a price needs. Each reader is characterised by the bytes it takes, so a
loop takes the encodings of its items one after the other. -/

namespace DominionSilver

open Checked Bytes Formats

section Readers

theorem reader_pure_ok {α : Type} {a b : α} {data rest : List UInt8} :
    (pure a : Reader α) data = .ok (b, rest) ↔ data = rest ∧ b = a := by
  change Except.ok (a, data) = _ ↔ _
  rw [Except.ok.injEq, Prod.mk.injEq, and_comm, eq_comm (a := a)]

theorem reader_throw_ok {α : Type} {e : LazerError} {b : α} {data rest : List UInt8} :
    (throw e : Reader α) data = .ok (b, rest) ↔ False :=
  ⟨nofun, False.elim⟩

theorem reader_get_ok {data rest left : List UInt8} :
    (get : Reader (List UInt8)) data = .ok (left, rest) ↔ left = data ∧ rest = data := by
  change Except.ok (data, data) = _ ↔ _
  rw [Except.ok.injEq, Prod.mk.injEq, eq_comm, eq_comm (a := data)]

theorem take_iff {n : ℕ} {data bs rest : List UInt8} :
    Reader.take n data = .ok (bs, rest) ↔ data = bs ++ rest ∧ bs.length = n := by
  constructor
  · intro h
    have hn : n ≤ data.length := by
      by_contra hlt
      unfold Reader.take at h
      rw [if_pos (by omega)] at h
      cases h
    obtain ⟨rfl, rfl⟩ := take_ok h
    exact ⟨(List.take_append_drop n data).symm, List.length_take_of_le hn⟩
  · rintro ⟨rfl, rfl⟩
    unfold Reader.take
    rw [if_neg (by rw [List.length_append]; omega), List.take_left, List.drop_left]

theorem word_iff {α : Type} [Word α] {data rest : List UInt8} {v : α} :
    ((do return Word.ofNat (ofLE (← Reader.take (Word.width α)))) : Reader α) data =
      .ok (v, rest) ↔ data = toLEBytes v ++ rest := by
  simp only [reader_bind_ok, reader_pure_ok, take_iff]
  constructor
  · rintro ⟨bs, mid, ⟨rfl, hlen⟩, rfl, rfl⟩
    rw [toLEBytes_ofLE hlen]
  · rintro rfl
    have hlt : Word.toNat v < 256 ^ Word.width α := Word.size_eq (α := α) ▸ Word.toNat_lt v
    refine ⟨_, _, ⟨rfl, length_toLEBytes v⟩, rfl, ?_⟩
    rw [toLEBytes, ofLE_toLE _ _ hlt]
    exact Word.toNat_injective (Word.toNat_ofNat _ (Word.toNat_lt v)).symm

variable {data rest : List UInt8}

theorem u8_iff {v : UInt8} : Reader.u8 data = .ok (v, rest) ↔ data = v :: rest := by
  have h : toLEBytes v = [v] := by
    have hv := v.toNat_lt
    change [UInt8.ofNat (v.toNat % 256)] = [v]
    rw [Nat.mod_eq_of_lt hv, UInt8.ofNat_toNat]
  refine (word_iff (α := UInt8)).trans ?_
  rw [h, List.singleton_append]

theorem u16_iff {v : UInt16} : Reader.u16 data = .ok (v, rest) ↔ data = toLEBytes v ++ rest :=
  word_iff

theorem u32_iff {v : UInt32} : Reader.u32 data = .ok (v, rest) ↔ data = toLEBytes v ++ rest :=
  word_iff

theorem u64_iff {v : UInt64} : Reader.u64 data = .ok (v, rest) ↔ data = toLEBytes v ++ rest :=
  word_iff

theorem i16_iff {z : ℤ} :
    Reader.i16 data = .ok (z, rest) ↔ ∃ v, data = toLEBytes v ++ rest ∧ z = asI16 v := by
  simp only [Reader.i16, reader_bind_ok, reader_pure_ok, u16_iff]
  constructor
  · rintro ⟨v, mid, rfl, rfl, rfl⟩
    exact ⟨v, rfl, rfl⟩
  · rintro ⟨v, rfl, rfl⟩
    exact ⟨v, rest, rfl, rfl, rfl⟩

theorem i64_iff {z : ℤ} :
    Reader.i64 data = .ok (z, rest) ↔ ∃ v, data = toLEBytes v ++ rest ∧ z = asI64 v := by
  simp only [Reader.i64, reader_bind_ok, reader_pure_ok, u64_iff]
  constructor
  · rintro ⟨v, mid, rfl, rfl, rfl⟩
    exact ⟨v, rfl, rfl⟩
  · rintro ⟨v, rfl, rfl⟩
    exact ⟨v, rest, rfl, rfl, rfl⟩

def Presence.value : Presence → Option UInt64
  | absent => none
  | present _ _ v => some v

theorem readOptional_iff {o : Option UInt64} :
    readOptional data = .ok (o, rest) ↔ ∃ v : Presence, data = v.bytes ++ rest ∧ o = v.value := by
  simp only [readOptional, reader_bind_ok, u8_iff]
  constructor
  · rintro ⟨flag, mid, rfl, h⟩
    split_ifs at h with hf
    · simp only [reader_bind_ok, reader_pure_ok, u64_iff] at h
      obtain ⟨v, mid, rfl, rfl, rfl⟩ := h
      exact ⟨.present flag hf v, rfl, rfl⟩
    · obtain ⟨rfl, rfl⟩ := reader_pure_ok.1 h
      obtain rfl := not_not.1 hf
      exact ⟨.absent, rfl, rfl⟩
  · rintro ⟨v, rfl, rfl⟩
    cases v with
    | absent =>
      refine ⟨0, rest, rfl, ?_⟩
      rw [if_neg (by decide), reader_pure_ok]
      exact ⟨rfl, rfl⟩
    | present flag set v =>
      refine ⟨flag, toLEBytes v ++ rest, rfl, ?_⟩
      rw [if_pos set]
      simp only [reader_bind_ok, reader_pure_ok, u64_iff]
      exact ⟨v, rest, rfl, rfl, rfl⟩

end Readers

section Properties

/-- What the target feed shows once a property of it is read. -/
def capture (t : Target) : Property → Target
  | .price v => { t with price := some (asI64 v) }
  | .publisherCount v => { t with publisherCount := some v }
  | .exponent v => { t with exponent := some (asI16 v) }
  | .confidence v => { t with
      confidenceSeen := true, confidence := if asI64 v = 0 then none else some (asI64 v) }
  | .feedUpdateTimestamp v => { t with feedUpdateUs := v.value }
  | _ => t

variable {data rest : List UInt8} {isTarget : Bool} {t t' : Target}

theorem consumeProperty_iff {tag : UInt8} :
    consumeProperty tag isTarget t data = .ok (t', rest) ↔
      ∃ p : Property, p.tag = tag ∧ data = p.body ++ rest ∧
        t' = if isTarget then capture t p else t := by
  constructor
  · intro h
    unfold consumeProperty at h
    split at h
    all_goals
      first
      | exact (reader_throw_ok.1 h).elim
      | simp only [reader_bind_ok, reader_pure_ok, i64_iff, i16_iff, u16_iff, readOptional_iff] at h
    all_goals
      first
      | obtain ⟨v, _, rfl, rfl, rfl⟩ := h
      | obtain ⟨_, _, ⟨v, rfl, rfl⟩, rfl, rfl⟩ := h
    · exact ⟨.price v, rfl, rfl, rfl⟩
    · exact ⟨.confidence v, rfl, rfl, rfl⟩
    · exact ⟨.bestBidPrice v, rfl, rfl, (ite_self _).symm⟩
    · exact ⟨.bestAskPrice v, rfl, rfl, (ite_self _).symm⟩
    · exact ⟨.emaPrice v, rfl, rfl, (ite_self _).symm⟩
    · exact ⟨.emaConfidence v, rfl, rfl, (ite_self _).symm⟩
    · exact ⟨.publisherCount v, rfl, rfl, rfl⟩
    · exact ⟨.exponent v, rfl, rfl, rfl⟩
    · exact ⟨.marketSession v, rfl, rfl, (ite_self _).symm⟩
    · exact ⟨.fundingRate v, rfl, rfl, (ite_self _).symm⟩
    · exact ⟨.fundingTimestamp v, rfl, rfl, (ite_self _).symm⟩
    · exact ⟨.fundingRateInterval v, rfl, rfl, (ite_self _).symm⟩
    · exact ⟨.feedUpdateTimestamp v, rfl, rfl, rfl⟩
  · rintro ⟨p, rfl, rfl, rfl⟩
    cases p
    all_goals
      simp only [Property.tag, Property.body, consumeProperty, reader_bind_ok, reader_pure_ok,
        i64_iff, i16_iff, u16_iff, readOptional_iff]
    case price v | confidence v | exponent v | feedUpdateTimestamp v =>
      exact ⟨_, _, ⟨v, rfl, rfl⟩, rfl, rfl⟩
    case publisherCount v =>
      exact ⟨v, _, rfl, rfl, rfl⟩
    -- the others leave the target's data alone
    all_goals exact ⟨_, _, ⟨_, rfl, rfl⟩, rfl, ite_self _⟩

/-- The tag's bit is set. -/
def Met (seen : UInt16) (tag : UInt8) : Prop := seen &&& ((1 : UInt16) <<< tag.toUInt16) ≠ 0

theorem not_met_zero (tag : UInt8) : ¬ Met 0 tag := by
  simp [Met]

theorem Property.tag_le (p : Property) : p.tag ≤ MAX_KNOWN_PROP := by
  cases p <;> (rw [Property.tag]; decide)

theorem bits_disjoint : ∀ j k : Fin 13,
    (1 : UInt16) <<< (UInt8.ofNat j).toUInt16 &&& (1 : UInt16) <<< (UInt8.ofNat k).toUInt16 ≠ 0 ↔
      j = k := by
  decide +kernel

theorem met_or {seen : UInt16} {j k : UInt8} (hj : j ≤ MAX_KNOWN_PROP) (hk : k ≤ MAX_KNOWN_PROP) :
    Met (seen ||| (1 : UInt16) <<< k.toUInt16) j ↔ Met seen j ∨ j = k := by
  have hj : j.toNat < 13 := Nat.lt_succ_of_le (UInt8.le_iff_toNat_le.1 hj)
  have hk : k.toNat < 13 := Nat.lt_succ_of_le (UInt8.le_iff_toNat_le.1 hk)
  have hb := bits_disjoint ⟨k.toNat, hk⟩ ⟨j.toNat, hj⟩
  simp only [UInt8.ofNat_toNat, Fin.mk.injEq, UInt8.toNat_inj] at hb
  have hd : (seen ||| (1 : UInt16) <<< k.toUInt16) &&& (1 : UInt16) <<< j.toUInt16 =
      seen &&& 1 <<< j.toUInt16 ||| 1 <<< k.toUInt16 &&& 1 <<< j.toUInt16 :=
    UInt16.toBitVec_inj.1 BitVec.and_or_distrib_right
  unfold Met
  rw [hd, ne_eq, UInt16.or_eq_zero_iff, not_and_or, ← ne_eq, ← ne_eq, hb, eq_comm (a := j)]

/-- Tags are new and distinct where the first is new and the others are once its bit is set. -/
theorem nodup_unmet_cons {seen : UInt16} {p : Property} {ps : List Property} :
    ((p :: ps).map Property.tag).Nodup ∧ (∀ q ∈ p :: ps, ¬ Met seen q.tag) ↔
      ¬ Met seen p.tag ∧ (ps.map Property.tag).Nodup ∧
        ∀ q ∈ ps, ¬ Met (seen ||| (1 : UInt16) <<< p.tag.toUInt16) q.tag := by
  rw [List.map_cons, List.nodup_cons, List.forall_mem_cons]
  constructor
  · rintro ⟨⟨hnew, hd⟩, hp, hseen⟩
    refine ⟨hp, hd, ?_⟩
    intro q hq hm
    rcases (met_or q.tag_le p.tag_le).1 hm with hm | he
    · exact hseen q hq hm
    · exact hnew (List.mem_map.2 ⟨q, hq, he⟩)
  · rintro ⟨hp, hd, hseen⟩
    refine ⟨⟨?_, hd⟩, hp, ?_⟩
    · intro hmem
      obtain ⟨q, hq, he⟩ := List.mem_map.1 hmem
      exact hseen q hq ((met_or q.tag_le p.tag_le).2 (.inr he))
    · intro q hq hm
      exact hseen q hq ((met_or q.tag_le p.tag_le).2 (.inl hm))

theorem readProperties_iff {n : ℕ} {seen : UInt16} :
    readProperties isTarget n seen t data = .ok (t', rest) ↔
      ∃ ps : List Property, ps.length = n ∧ data = ps.flatMap Property.bytes ++ rest ∧
        (ps.map Property.tag).Nodup ∧ (∀ p ∈ ps, ¬ Met seen p.tag) ∧
        t' = if isTarget then ps.foldl capture t else t := by
  induction n generalizing seen t data with
  | zero =>
    rw [readProperties, reader_pure_ok]
    constructor
    · rintro ⟨rfl, rfl⟩
      exact ⟨[], rfl, rfl, List.nodup_nil, nofun, (ite_self _).symm⟩
    · rintro ⟨ps, hn, rfl, -, -, rfl⟩
      obtain rfl := List.length_eq_zero_iff.1 hn
      exact ⟨rfl, ite_self _⟩
  | succ n ih =>
    simp only [readProperties, reader_bind_ok, u8_iff]
    constructor
    · rintro ⟨tag, mid, rfl, h⟩
      split_ifs at h with hknown hmet
      · cases h
      · simp only [reader_bind_ok, consumeProperty_iff, ih] at h
        obtain ⟨_, _, ⟨p, rfl, rfl, rfl⟩, ps, rfl, rfl, hd, hseen, rfl⟩ := h
        obtain ⟨hd, hseen⟩ := nodup_unmet_cons.2 ⟨hmet, hd, hseen⟩
        refine ⟨p :: ps, rfl, by simp [Property.bytes], hd, hseen, ?_⟩
        cases isTarget <;> rfl
      · simp only [reader_bind_ok, consumeProperty_iff] at h
        obtain ⟨_, _, ⟨p, rfl, -⟩, -⟩ := h
        exact absurd p.tag_le hknown
    · rintro ⟨ps, hn, rfl, hd, hseen, rfl⟩
      cases ps with
      | nil => cases hn
      | cons p ps =>
        obtain ⟨hnew, hd, hseen⟩ := nodup_unmet_cons.1 ⟨hd, hseen⟩
        unfold Met at hnew
        refine ⟨p.tag, p.body ++ (ps.flatMap Property.bytes ++ rest), by simp [Property.bytes], ?_⟩
        rw [if_pos p.tag_le, if_neg hnew]
        simp only [reader_bind_ok, consumeProperty_iff, ih]
        refine ⟨_, _, ⟨p, rfl, rfl, rfl⟩, ps, Nat.succ.inj hn, rfl, hd, hseen, ?_⟩
        cases isTarget <;> rfl

end Properties

section Feeds

/-- What a feed shows when all its properties are read. -/
def Feed.shown (f : Feed) : Target := f.properties.foldl capture Target.empty

theorem Feed.length_lt (f : Feed) : f.properties.length < 256 := by
  have hsub : f.properties.map (fun p => p.tag.toNat) ⊆ List.range 13 := by
    intro k hk
    obtain ⟨p, -, rfl⟩ := List.mem_map.1 hk
    exact List.mem_range.2 (Nat.lt_succ_of_le (UInt8.le_iff_toNat_le.1 p.tag_le))
  have hd : (f.properties.map fun p => p.tag.toNat).Nodup := by
    rw [show (fun p : Property => p.tag.toNat) = UInt8.toNat ∘ Property.tag from rfl, ← List.map_map]
    exact f.distinct.map fun _ _ h => UInt8.toNat_inj.1 h
  have hle := (hd.subperm hsub).length_le
  rw [List.length_map, List.length_range] at hle
  omega

theorem toList_inj {α : Type} {o o' : Option α} : o.toList = o'.toList ↔ o = o' := by
  cases o <;> cases o' <;> simp

/-- The feeds with the target's id. -/
def selected (target : UInt32) (fs : List Feed) : List Feed := fs.filter (·.id = target)

variable {data rest : List UInt8} {target : UInt32} {f : Feed} {fs : List Feed}

theorem selected_pos (h : decide (f.id = target) = true) :
    selected target (f :: fs) = f :: selected target fs :=
  List.filter_cons_of_pos h

theorem selected_neg (h : ¬ decide (f.id = target) = true) :
    selected target (f :: fs) = selected target fs :=
  List.filter_cons_of_neg h

theorem readFeeds_iff {n : ℕ} {found out : Option Target} :
    readFeeds target n found data = .ok (out, rest) ↔
      ∃ fs : List Feed, fs.length = n ∧ data = fs.flatMap Feed.bytes ++ rest ∧
        out.toList = found.toList ++ (selected target fs).map Feed.shown := by
  induction n generalizing found data with
  | zero =>
    rw [readFeeds, reader_pure_ok]
    constructor
    · rintro ⟨rfl, rfl⟩
      exact ⟨[], rfl, rfl, (List.append_nil _).symm⟩
    · rintro ⟨fs, hn, rfl, hout⟩
      obtain rfl := List.length_eq_zero_iff.1 hn
      rw [selected, List.filter_nil, List.map_nil, List.append_nil] at hout
      exact ⟨rfl, toList_inj.1 hout⟩
  | succ n ih =>
    simp only [readFeeds, reader_bind_ok, u8_iff, u32_iff, readProperties_iff]
    constructor
    · rintro ⟨id, _, rfl, count, _, rfl, t, _, ⟨ps, hcount, rfl, hd, -, rfl⟩, h⟩
      have hfeed : Feed.bytes ⟨id, ps, hd⟩ =
          toLEBytes id ++ count :: ps.flatMap Property.bytes := by
        rw [Feed.bytes, hcount, UInt8.ofNat_toNat]
      split_ifs at h with htarget hfound
      · cases h
      · obtain ⟨fs, rfl, rfl, hout⟩ := ih.1 h
        refine ⟨⟨id, ps, hd⟩ :: fs, rfl, ?_, ?_⟩
        · simp [hfeed]
        · rw [selected_pos htarget, hout, Option.not_isSome_iff_eq_none.1 hfound]
          rfl
      · obtain ⟨fs, rfl, rfl, hout⟩ := ih.1 h
        refine ⟨⟨id, ps, hd⟩ :: fs, rfl, ?_, ?_⟩
        · simp [hfeed]
        · rw [selected_neg htarget]
          exact hout
    · rintro ⟨fs, hn, rfl, hout⟩
      cases fs with
      | nil => cases hn
      | cons f fs =>
        have hcount : (UInt8.ofNat f.properties.length).toNat = f.properties.length :=
          UInt8.toNat_ofNat_of_lt' f.length_lt
        refine ⟨f.id, _, ?_, _, _, rfl, _, fs.flatMap Feed.bytes ++ rest,
          ⟨f.properties, hcount.symm, rfl, f.distinct, fun p _ => not_met_zero p.tag, rfl⟩, ?_⟩
        · simp [Feed.bytes]
        by_cases htarget : decide (f.id = target) = true
        · rw [selected_pos htarget] at hout
          simp only [htarget, if_true]
          cases found with
          | none => exact ih.2 ⟨fs, Nat.succ.inj hn, rfl, hout⟩
          | some t => cases out <;> simp at hout
        · rw [selected_neg htarget] at hout
          rw [if_neg htarget]
          exact ih.2 ⟨fs, Nat.succ.inj hn, rfl, hout⟩

end Feeds

section Payloads

/-- A field that one kind `mk` of property sets is set exactly where the feed has one. -/
theorem Feed.shown_eq_some {ω δ : Type} (f : Feed) {get : Target → Option δ} (mk : ω → Property)
    {val : ω → Option δ} (k : UInt8) (none_empty : get Target.empty = none)
    (kind : ∀ v, (mk v).tag = k) (own : ∀ t v, get (capture t (mk v)) = val v)
    (other : ∀ t p, (∃ v, p = mk v) ∨ p.tag ≠ k ∧ get (capture t p) = get t) {x : δ} :
    get f.shown = some x ↔ ∃ v, mk v ∈ f.properties ∧ val v = some x := by
  have hown : ∀ t p, p.tag = k → get (capture t p) = get (capture Target.empty p) := by
    intro t p hp
    rcases other t p with ⟨v, rfl⟩ | ⟨hne, -⟩
    · rw [own, own]
    · exact absurd hp hne
  have hother : ∀ t p, p.tag ≠ k → get (capture t p) = get t := by
    intro t p hp
    rcases other t p with ⟨v, rfl⟩ | ⟨-, he⟩
    · exact absurd (kind v) hp
    · exact he
  refine (foldl_eq_some hother hown f.distinct none_empty).trans ⟨?_, ?_⟩
  · rintro ⟨p, hp, hk, hx⟩
    rcases other Target.empty p with ⟨v, rfl⟩ | ⟨hne, -⟩
    · exact ⟨v, hp, (own _ v).symm.trans hx⟩
    · exact absurd hk hne
  · rintro ⟨v, hv, hx⟩
    exact ⟨mk v, hv, kind v, (own _ v).trans hx⟩

variable {f : Feed}

theorem shown_price {z : ℤ} :
    f.shown.price = some z ↔ ∃ v, .price v ∈ f.properties ∧ some (asI64 v) = some z := by
  refine f.shown_eq_some .price 0 rfl (fun _ => rfl) (fun _ _ => rfl) ?_
  intro t p
  cases p <;> first | exact .inl ⟨_, rfl⟩ | exact .inr ⟨by rw [Property.tag]; decide, rfl⟩

theorem shown_exponent {z : ℤ} :
    f.shown.exponent = some z ↔ ∃ v, .exponent v ∈ f.properties ∧ some (asI16 v) = some z := by
  refine f.shown_eq_some .exponent 4 rfl (fun _ => rfl) (fun _ _ => rfl) ?_
  intro t p
  cases p <;> first | exact .inl ⟨_, rfl⟩ | exact .inr ⟨by rw [Property.tag]; decide, rfl⟩

theorem shown_publisherCount {n : UInt16} :
    f.shown.publisherCount = some n ↔ ∃ v, .publisherCount v ∈ f.properties ∧ some v = some n := by
  refine f.shown_eq_some .publisherCount 3 rfl (fun _ => rfl) (fun _ _ => rfl) ?_
  intro t p
  cases p <;> first | exact .inl ⟨_, rfl⟩ | exact .inr ⟨by rw [Property.tag]; decide, rfl⟩

theorem shown_feedUpdateUs {n : UInt64} :
    f.shown.feedUpdateUs = some n ↔
      ∃ v, .feedUpdateTimestamp v ∈ f.properties ∧ v.value = some n := by
  refine f.shown_eq_some .feedUpdateTimestamp 12 rfl (fun _ => rfl) (fun _ _ => rfl) ?_
  intro t p
  cases p <;> first | exact .inl ⟨_, rfl⟩ | exact .inr ⟨by rw [Property.tag]; decide, rfl⟩

/-- The confidence and whether it was seen, as one field. -/
def Target.seenConfidence (t : Target) : Option (Option ℤ) :=
  if t.confidenceSeen then some t.confidence else none

theorem shown_confidence {o : Option ℤ} :
    f.shown.seenConfidence = some o ↔ ∃ v, .confidence v ∈ f.properties ∧
      some (if asI64 v = 0 then none else some (asI64 v)) = some o := by
  refine f.shown_eq_some .confidence 5 rfl (fun _ => rfl) (fun _ _ => rfl) ?_
  intro t p
  cases p <;> first | exact .inl ⟨_, rfl⟩ | exact .inr ⟨by rw [Property.tag]; decide, rfl⟩

theorem asI64_eq_zero {v : UInt64} : asI64 v = 0 ↔ v = 0 := by
  have hv := v.toNat_lt
  rw [asI64, ← UInt64.toNat_inj, UInt64.toNat_zero]
  split_ifs <;> omega

theorem Feed.carries_iff {r : LazerPrice} :
    f.Carries r ↔ (r.price ≠ 0 ∧ f.shown.price = some r.price) ∧
      f.shown.exponent = some r.exponent ∧ f.shown.publisherCount = some r.publisherCount ∧
      f.shown.seenConfidence = some r.confidence ∧
      f.shown.feedUpdateUs = some r.feedUpdateTimestampUs := by
  simp only [shown_price, shown_exponent, shown_publisherCount, shown_confidence,
    shown_feedUpdateUs, Option.some.injEq, asI64_eq_zero]
  constructor
  · rintro ⟨⟨v, hv, hprice, he⟩, ⟨e, hexp, he'⟩, hcount, ⟨c, hconf, hc⟩, flag, set, hfut⟩
    exact ⟨⟨he ▸ asI64_eq_zero.not.2 hv, v, hprice, he.symm⟩, ⟨e, hexp, he'.symm⟩,
      ⟨_, hcount, rfl⟩, ⟨c, hconf, hc.symm⟩, _, hfut, rfl⟩
  · rintro ⟨⟨hne, v, hprice, he⟩, ⟨e, hexp, he'⟩, ⟨_, hcount, rfl⟩, ⟨c, hconf, hc⟩, u, hfut, hu⟩
    refine ⟨⟨v, ?_, hprice, he.symm⟩, ⟨e, hexp, he'.symm⟩, hcount, ⟨c, hconf, hc.symm⟩, ?_⟩
    · exact asI64_eq_zero.not.1 (he ▸ hne)
    · cases u with
      | absent => cases hu
      | present flag set w => exact ⟨flag, set, Option.some.inj hu ▸ hfut⟩

theorem readPayload_iff {target : UInt32} {channel : UInt8} {p rest : List UInt8}
    {timestampUs : UInt64} {channelId : UInt8} {found : Option Target} :
    readPayload target channel p = .ok ((timestampUs, channelId, found), rest) ↔
      ∃ m : Payload, p = m.bytes ∧ m.channelId = channel ∧ timestampUs = m.timestampUs ∧
        channelId = m.channelId ∧ found.toList = (selected target m.feeds).map Feed.shown ∧
        rest = [] := by
  constructor
  · intro h
    simp only [readPayload, reader_bind_ok, u32_iff] at h
    obtain ⟨magic, _, rfl, h⟩ := h
    split_ifs at h with hmagic
    · cases h
    obtain rfl := not_not.1 hmagic
    simp only [reader_bind_ok, u64_iff, u8_iff] at h
    obtain ⟨timestamp, _, rfl, id, _, rfl, h⟩ := h
    split_ifs at h with hchannel
    · cases h
    obtain rfl := not_not.1 hchannel
    simp only [reader_bind_ok, u8_iff, readFeeds_iff, reader_get_ok] at h
    obtain ⟨count, _, rfl, found', _, ⟨fs, hcount, rfl, hout⟩, left, _, ⟨rfl, rfl⟩, h⟩ := h
    split_ifs at h with hleft
    · cases h
    obtain rfl := not_not.1 hleft
    obtain ⟨rfl, he⟩ := reader_pure_ok.1 h
    obtain ⟨rfl, rfl, rfl⟩ : timestampUs = timestamp ∧ channelId = id ∧ found = found' := by
      simpa using he
    refine ⟨⟨timestampUs, channelId, fs, hcount ▸ count.toNat_lt⟩, ?_, rfl, rfl, rfl, hout, rfl⟩
    simp [Payload.bytes, hcount]
  · rintro ⟨m, rfl, rfl, rfl, rfl, hout, rfl⟩
    have hcount : (UInt8.ofNat m.feeds.length).toNat = m.feeds.length :=
      UInt8.toNat_ofNat_of_lt' m.counted
    simp only [readPayload, reader_bind_ok, u32_iff]
    refine ⟨PAYLOAD_FORMAT_MAGIC, _, by rw [Payload.bytes, List.append_assoc], ?_⟩
    simp only [ne_eq, not_true_eq_false, if_false, reader_bind_ok, u64_iff, u8_iff]
    refine ⟨m.timestampUs, _, rfl, m.channelId, _, rfl, ?_⟩
    simp only [not_true_eq_false, if_false, reader_bind_ok, u8_iff, readFeeds_iff, reader_get_ok]
    refine ⟨_, _, rfl, found, [], ⟨m.feeds, hcount.symm, (List.append_nil _).symm, hout⟩, [], [],
      ⟨rfl, rfl⟩, ?_⟩
    simp only [not_true_eq_false, if_false, reader_pure_ok, and_self]

/-- A payload is accepted for a target and a channel, with price `r`, exactly where it is the
encoding of a payload on that channel in which one feed is the target and carries `r`. -/
theorem extractFeedPrice_iff (p : List UInt8) (target : UInt32) (channel : UInt8) (r : LazerPrice) :
    extractFeedPrice p target channel = .ok r ↔
      p.length ≤ MAX_PAYLOAD ∧ ∃ m : Payload, p = m.bytes ∧ m.channelId = channel ∧
        (∃ f, m.feeds.filter (·.id = target) = [f] ∧ f.Carries r) ∧
        r.channelId = channel ∧ r.timestampUs = m.timestampUs := by
  simp only [extractFeedPrice, bind_ok, guardOr_ok, okOr_ok, exists_unit, pure_ok, Prod.exists,
    readPayload_iff]
  refine and_congr_right fun _ => ⟨?_, ?_⟩
  · rintro ⟨_, _, found, _, ⟨m, rfl, rfl, rfl, rfl, hfound, rfl⟩, t, rfl, price, hprice, hne,
      exponent, hexp, count, hcount, hseen, updated, hupdated, rfl⟩
    have hone : [t] = (selected target m.feeds).map Feed.shown := hfound
    obtain ⟨f, hf, rfl⟩ := List.map_eq_singleton_iff.1 hone.symm
    refine ⟨m, rfl, rfl, ⟨f, hf, Feed.carries_iff.2 ⟨⟨hne, hprice⟩, hexp, hcount, ?_, hupdated⟩⟩,
      rfl, rfl⟩
    rw [Target.seenConfidence, if_pos hseen]
  · rintro ⟨m, rfl, rfl, ⟨f, hf, hcarries⟩, hchannel, htime⟩
    obtain ⟨⟨hne, hprice⟩, hexp, hcount, hconf, hupdated⟩ := Feed.carries_iff.1 hcarries
    obtain ⟨hseen, hconf⟩ := Option.ite_none_right_eq_some.1 hconf
    refine ⟨m.timestampUs, m.channelId, some f.shown, [], ⟨m, rfl, rfl, rfl, rfl, ?_, rfl⟩,
      f.shown, rfl, r.price, hprice, hne, r.exponent, hexp, r.publisherCount, hcount, hseen,
      r.feedUpdateTimestampUs, hupdated, ?_⟩
    · rw [selected, hf]
      rfl
    · rw [Option.some.inj hconf, ← hchannel, ← htime]

example : (extractFeedPrice (Reference.printAt 7) 345 LAZER_CHANNEL_ID).map (·.timestampUs) =
    .ok 7 := by
  decide +kernel

end Payloads

section PrefixFree

theorem Presence.selfDelimiting : SelfDelimiting Presence.bytes := by
  intro u v s t h
  cases u with
  | absent =>
    cases v with
    | absent => exact ⟨rfl, List.tail_eq_of_cons_eq h⟩
    | present flag set v => exact absurd (List.head_eq_of_cons_eq h).symm set
  | present flag set u =>
    cases v with
    | absent => exact absurd (List.head_eq_of_cons_eq h) set
    | present flag' set' v =>
      obtain rfl := List.head_eq_of_cons_eq h
      obtain ⟨rfl, hs⟩ := selfDelimiting_word (List.tail_eq_of_cons_eq h)
      exact ⟨rfl, hs⟩

theorem Property.selfDelimiting : SelfDelimiting Property.bytes := by
  intro p q s t h
  have htag : p.tag = q.tag := List.head_eq_of_cons_eq h
  have hbody : p.body ++ s = q.body ++ t := List.tail_eq_of_cons_eq h
  cases p <;> cases q <;>
    first
    | exact absurd htag (by rw [Property.tag, Property.tag]; decide)
    | obtain ⟨rfl, hs⟩ := selfDelimiting_word hbody
      exact ⟨rfl, hs⟩
    | obtain ⟨rfl, hs⟩ := Presence.selfDelimiting hbody
      exact ⟨rfl, hs⟩

theorem length_eq_of_count {α β : Type} {xs : List α} {ys : List β} (hx : xs.length < 256)
    (hy : ys.length < 256) (h : UInt8.ofNat xs.length = UInt8.ofNat ys.length) :
    xs.length = ys.length := by
  rw [← UInt8.toNat_ofNat_of_lt' hx, h, UInt8.toNat_ofNat_of_lt' hy]

theorem Feed.selfDelimiting : SelfDelimiting Feed.bytes := by
  intro f g s t h
  obtain ⟨fid, ps, hps⟩ := f
  obtain ⟨gid, qs, hqs⟩ := g
  simp only [Feed.bytes, List.append_assoc] at h
  obtain ⟨rfl, hrest⟩ := selfDelimiting_word h
  have hlen := length_eq_of_count (Feed.length_lt ⟨fid, ps, hps⟩) (Feed.length_lt ⟨fid, qs, hqs⟩)
    (List.head_eq_of_cons_eq hrest)
  obtain ⟨rfl, hs⟩ := Property.selfDelimiting.flatMap hlen (List.tail_eq_of_cons_eq hrest)
  exact ⟨rfl, hs⟩

theorem Payload.selfDelimiting : SelfDelimiting Payload.bytes := by
  intro m m' s t h
  obtain ⟨time, channel, fs, hfs⟩ := m
  obtain ⟨time', channel', fs', hfs'⟩ := m'
  simp only [Payload.bytes, List.append_assoc] at h
  obtain ⟨rfl, hrest⟩ := selfDelimiting_word (List.append_cancel_left h)
  obtain rfl := List.head_eq_of_cons_eq hrest
  have hfeeds := List.tail_eq_of_cons_eq hrest
  have hlen := length_eq_of_count hfs hfs' (List.head_eq_of_cons_eq hfeeds)
  obtain ⟨rfl, hs⟩ := Feed.selfDelimiting.flatMap hlen (List.tail_eq_of_cons_eq hfeeds)
  exact ⟨rfl, hs⟩

/-- The parser accepts the payload for some target and channel. -/
def Accepted (p : List UInt8) : Prop :=
  ∃ target channel r, extractFeedPrice p target channel = .ok r

theorem Accepted.payload {p : List UInt8} (h : Accepted p) : ∃ m : Payload, p = m.bytes := by
  obtain ⟨target, channel, r, hr⟩ := h
  simp only [extractFeedPrice, bind_ok, guardOr_ok, exists_unit, Prod.exists,
    readPayload_iff] at hr
  obtain ⟨-, _, _, _, _, ⟨m, hp, -⟩, -⟩ := hr
  exact ⟨m, hp⟩

/-- What extends an accepted payload is accepted for no target and channel, and neither is what is
cut off from one. -/
theorem accepted_prefix_free {p : List UInt8} (h : Accepted p) :
    (∀ s, s ≠ [] → ¬ Accepted (p ++ s)) ∧ ∀ q, q <+: p → q ≠ p → ¬ Accepted q := by
  have extends_nil : ∀ {q s}, Accepted q → Accepted (q ++ s) → s = [] := fun hq hqs => by
    obtain ⟨m, rfl⟩ := hq.payload
    obtain ⟨m', he⟩ := hqs.payload
    exact Payload.selfDelimiting.eq_nil he
  refine ⟨fun s hs hps => hs (extends_nil h hps), ?_⟩
  rintro q ⟨s, rfl⟩ hne hq
  exact hne (by rw [extends_nil hq h, List.append_nil])

theorem accepted_prefix_free_printAt :
    (extractFeedPrice (Reference.printAt 7 ++ [0]) 345 LAZER_CHANNEL_ID).isOk = false := by
  have h : Accepted (Reference.printAt 7) := ⟨345, LAZER_CHANNEL_ID, _, rfl⟩
  have hno := (accepted_prefix_free h).1 [0] (by decide)
  cases he : extractFeedPrice (Reference.printAt 7 ++ [0]) 345 LAZER_CHANNEL_ID with
  | error e => rfl
  | ok r => exact absurd ⟨_, _, r, he⟩ hno

end PrefixFree

end DominionSilver
