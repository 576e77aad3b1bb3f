import PrinterSdk.Ipp.Decode
import PrinterSdk.Ipp.Wire

/-!
# What the decoder reads

`Parsed` relates two decoder states by the bytes read between them and the
resources counted for these bytes.  Every method is described by the values it can
return and the wire form it reads for each, in both directions: it returns the
value exactly when the input continues with that wire form.
-/

namespace PrinterSdk.Ipp

open PrinterSdk.Data

namespace Decoder

/-- The input still to be read. -/
def rest (decoder : Decoder) : Bytes := decoder.input.drop decoder.offset

/-- The decoder once `bytes` are read and `cost` is counted. -/
def after (decoder : Decoder) (bytes : Bytes) (cost : Counters) : Decoder :=
  { decoder with
    offset := decoder.offset + bytes.length
    counters := decoder.counters + cost }

/-- The decoder works under `limits` and is within them. -/
structure Ready (limits : Limits) (decoder : Decoder) : Prop where
  under : decoder.limits = limits
  offset : decoder.offset ≤ decoder.input.length
  input : decoder.input.length ≤ usizeMax
  counters : decoder.counters ≤ limits.bound

/-- The decoder reads `bytes`, counts `cost` and arrives at `result`. -/
structure Parsed (limits : Limits) (decoder : Decoder) (bytes : Bytes)
    (cost : Counters) (result : Decoder) : Prop where
  consumed : bytes <+: decoder.rest
  ready : result.Ready limits
  state : decoder.after bytes cost = result

variable {limits : Limits} {decoder middle result : Decoder}
variable {bytes more : Bytes} {cost further : Counters}

theorem after_after : (decoder.after bytes cost).after more further =
    decoder.after (bytes ++ more) (cost + further) := by
  simp [after, add_assoc]

theorem Ready.of_after (ready : (decoder.after bytes cost).Ready limits) :
    decoder.Ready limits where
  under := ready.under
  offset := Nat.le_trans (Nat.le_add_right _ _) ready.offset
  input := ready.input
  counters := fun kind => Nat.le_trans (Nat.le_add_right _ _) (ready.counters kind)

/-- What is read and what is left make up what was left before. -/
theorem rest_after (cost : Counters) (consumed : bytes <+: decoder.rest) :
    bytes ++ (decoder.after bytes cost).rest = decoder.rest := by
  rcases consumed with ⟨tail, same⟩
  have left : (decoder.after bytes cost).rest = tail := by
    change decoder.input.drop (decoder.offset + bytes.length) = tail
    rw [← List.drop_drop]
    change decoder.rest.drop bytes.length = tail
    rw [← same, List.drop_left]
  rw [left, same]

theorem Parsed.split (parsed : Parsed limits decoder bytes cost result) :
    bytes ++ result.rest = decoder.rest := by
  rw [← parsed.state]
  exact rest_after cost parsed.consumed

theorem Parsed.length (parsed : Parsed limits decoder bytes cost result) :
    bytes.length + result.rest.length = decoder.rest.length := by
  rw [← parsed.split, List.length_append]

theorem parsed_nothing (ready : decoder.Ready limits) :
    Parsed limits decoder [] 0 result ↔ decoder = result := by
  have still : decoder.after [] 0 = decoder := by simp [after]
  constructor
  · intro parsed
    rw [← parsed.state, still]
  · rintro rfl
    exact ⟨List.nil_prefix, ready, still⟩

/-- Reading a concatenation is reading its parts one after the other. -/
theorem parsed_append :
    Parsed limits decoder (bytes ++ more) (cost + further) result ↔
      ∃ middle, Parsed limits decoder bytes cost middle ∧
        Parsed limits middle more further result := by
  constructor
  · intro parsed
    have consumed : bytes <+: decoder.rest :=
      (List.prefix_append bytes more).trans parsed.consumed
    have ready : (decoder.after bytes cost).Ready limits := by
      have finished := parsed.ready
      rw [← parsed.state, ← after_after] at finished
      exact finished.of_after
    refine ⟨decoder.after bytes cost, ⟨consumed, ready, rfl⟩, ?_, parsed.ready, ?_⟩
    · have whole := parsed.consumed
      rw [← rest_after cost consumed] at whole
      exact (List.prefix_append_right_inj bytes).mp whole
    · rw [after_after]
      exact parsed.state
  · rintro ⟨middle, first, second⟩
    refine ⟨?_, second.ready, ?_⟩
    · rw [← first.split]
      exact (List.prefix_append_right_inj bytes).mpr second.consumed
    · rw [← after_after, first.state]
      exact second.state

/-! ## Composition -/

/-- The method returns `value` exactly when `accepts value` holds and the input
continues with `bytes value`. -/
def Parses {α : Type} (limits : Limits) (method : Decode α) (accepts : α → Prop)
    (bytes : α → Bytes) (cost : α → Counters) : Prop :=
  ∀ decoder result value, decoder.Ready limits →
    (method decoder = .ok (value, result) ↔
      accepts value ∧ Parsed limits decoder (bytes value) (cost value) result)

section

variable {α β : Type} {accepts : α → Prop} {reads : α → Bytes} {costs : α → Counters}

theorem parses_pure (value : α) :
    Parses limits (pure value) (fun returned => returned = value) (fun _ => [])
      (fun _ => 0) := by
  intro decoder result returned ready
  rw [Method.pure_eq_ok, Prod.mk.injEq, parsed_nothing ready, eq_comm]

theorem Parses.congr {method : Decode α} {accepts' : α → Prop} {reads' : α → Bytes}
    {costs' : α → Counters} (parses : Parses limits method accepts reads costs)
    (same : ∀ value, accepts value → reads value = reads' value ∧ costs value = costs' value)
    (sameAccepts : ∀ value, accepts value ↔ accepts' value) :
    Parses limits method accepts' reads' costs' := by
  intro decoder result value ready
  rw [parses decoder result value ready, ← sameAccepts]
  constructor
  · rintro ⟨accepted, parsed⟩
    rw [(same value accepted).1, (same value accepted).2] at parsed
    exact ⟨accepted, parsed⟩
  · rintro ⟨accepted, parsed⟩
    rw [← (same value accepted).1, ← (same value accepted).2] at parsed
    exact ⟨accepted, parsed⟩

/-- Sequencing, when the final value determines the intermediate one. -/
theorem Parses.bind {first : Decode α} {next : α → Decode β}
    {admits : α → β → Prop} {then_ : α → β → Bytes} {adds : α → β → Counters}
    (parses : Parses limits first accepts reads costs)
    (continues : ∀ value, Parses limits (next value) (admits value) (then_ value) (adds value))
    (back : β → α)
    (determined : ∀ value final, accepts value → admits value final → back final = value) :
    Parses limits (first >>= next)
      (fun final => accepts (back final) ∧ admits (back final) final)
      (fun final => reads (back final) ++ then_ (back final) final)
      (fun final => costs (back final) + adds (back final) final) := by
  intro decoder result final ready
  rw [Method.bind_eq_ok, parsed_append]
  constructor
  · rintro ⟨value, middle, returned, continued⟩
    obtain ⟨accepted, parsed⟩ := (parses _ _ _ ready).mp returned
    obtain ⟨admitted, finished⟩ := (continues _ _ _ _ parsed.ready).mp continued
    obtain rfl := determined _ _ accepted admitted
    exact ⟨⟨accepted, admitted⟩, middle, parsed, finished⟩
  · rintro ⟨⟨accepted, admitted⟩, middle, parsed, finished⟩
    exact ⟨back final, middle, (parses _ _ _ ready).mpr ⟨accepted, parsed⟩,
      (continues _ _ _ _ parsed.ready).mpr ⟨admitted, finished⟩⟩

theorem Parses.guard {method : Decode α} (parses : Parses limits method accepts reads costs)
    (refused : Prop) [Decidable refused] (error : DecodeError) :
    Parses limits (if refused then Method.fail error else method)
      (fun value => ¬refused ∧ accepts value) reads costs := by
  intro decoder result value ready
  by_cases refuses : refused
  · simp [refuses]
  · simp only [refuses, if_false, not_false_eq_true, true_and]
    exact parses decoder result value ready

/-- A method that first reads the decoder may use its limits. -/
theorem Parses.reading {body : Decoder → Decode α} {method : Decode α}
    (parses : Parses limits method accepts reads costs)
    (same : ∀ decoder, decoder.limits = limits → body decoder = method) :
    Parses limits (get >>= body) accepts reads costs := by
  intro decoder result value ready
  rw [Method.bind_eq_ok, ← parses decoder result value ready]
  constructor
  · rintro ⟨seen, middle, read, returned⟩
    rw [Method.get_eq_ok, Prod.mk.injEq] at read
    obtain ⟨rfl, rfl⟩ := read
    rw [same _ ready.under] at returned
    exact returned
  · intro returned
    refine ⟨decoder, decoder, by simp, ?_⟩
    rw [same _ ready.under]
    exact returned

end

/-! ## Primitive methods -/

theorem rest_eq_cons (byte : UInt8) :
    [byte] <+: decoder.rest ↔ decoder.input[decoder.offset]? = some byte := by
  rw [← List.head?_drop]
  change [byte] <+: decoder.rest ↔ decoder.rest.head? = some byte
  cases decoder.rest with
  | nil => simp
  | cons first tail => simp [eq_comm]

/-- Where there is a byte the offset can be advanced past it. -/
theorem advance_of_found {byte : UInt8} (ready : decoder.Ready limits)
    (found : decoder.input[decoder.offset]? = some byte) :
    checkedAdd decoder.offset 1 = some (decoder.offset + 1) := by
  have inside := (List.getElem?_eq_some_iff.mp found).1
  exact checkedAdd_eq_some.mpr ⟨Nat.le_trans inside ready.input, rfl⟩

theorem byte_parses :
    Parses limits byte (fun _ => True) (fun read => [read]) (fun _ => 0) := by
  intro decoder result read ready
  simp only [byte, Method.bind_eq_ok, Method.get_eq_ok, Prod.mk.injEq, true_and]
  constructor
  · rintro ⟨_, _, ⟨rfl, rfl⟩, returned⟩
    cases found : decoder.input[decoder.offset]? with
    | none => simp [found] at returned
    | some next =>
        simp only [found, Method.bind_eq_ok, Method.lift_eq_ok, okOr_eq_ok, Method.set_eq_ok,
          Method.pure_eq_ok, Prod.mk.injEq] at returned
        obtain ⟨_, _, ⟨advanced, rfl⟩, _, _, ⟨_, rfl⟩, rfl, rfl⟩ := returned
        have inside : decoder.offset < decoder.input.length :=
          (List.getElem?_eq_some_iff.mp found).1
        obtain ⟨-, rfl⟩ := checkedAdd_eq_some.mp advanced
        exact ⟨(rest_eq_cons next).mpr found,
          ⟨ready.under, inside, ready.input, ready.counters⟩, by simp [after]⟩
  · intro parsed
    have found := (rest_eq_cons read).mp parsed.consumed
    refine ⟨decoder, decoder, ⟨rfl, rfl⟩, ?_⟩
    rw [← parsed.state]
    simp only [found, advance_of_found ready found, after, add_zero]
    rfl

theorem peek_eq_ok {read : UInt8} :
    peek decoder = .ok (read, result) ↔ [read] <+: decoder.rest ∧ decoder = result := by
  rw [rest_eq_cons]
  simp only [peek, Method.bind_eq_ok, Method.get_eq_ok, Prod.mk.injEq]
  constructor
  · rintro ⟨_, _, ⟨rfl, rfl⟩, returned⟩
    cases found : decoder.input[decoder.offset]? with
    | none => simp [found] at returned
    | some next => simpa [found] using returned
  · rintro ⟨found, rfl⟩
    exact ⟨decoder, decoder, ⟨rfl, rfl⟩, by simp [found]⟩

theorem take_parses (length : Nat) :
    Parses limits (take length) (fun taken => taken.length = length) (fun taken => taken)
      (fun _ => 0) := by
  intro decoder result taken ready
  have size : decoder.rest.length = decoder.input.length - decoder.offset := by
    simp [rest]
  have offset := ready.offset
  have machine := ready.input
  simp only [take, Method.bind_eq_ok, Method.get_eq_ok, Prod.mk.injEq]
  constructor
  · rintro ⟨_, _, ⟨rfl, rfl⟩, returned⟩
    cases added : checkedAdd decoder.offset length with
    | none => simp [added] at returned
    | some finish =>
        obtain ⟨_, rfl⟩ := checkedAdd_eq_some.mp added
        by_cases inside : decoder.offset + length ≤ decoder.input.length
        · simp only [added, inside, if_true, Method.bind_eq_ok, Method.set_eq_ok,
            Method.pure_eq_ok, Prod.mk.injEq] at returned
          obtain ⟨_, _, ⟨_, rfl⟩, rfl, rfl⟩ := returned
          change (decoder.rest.take length).length = length ∧
            Parsed limits decoder (decoder.rest.take length) 0 _
          have exact_ : (decoder.rest.take length).length = length := by
            rw [List.length_take]
            omega
          exact ⟨exact_, List.take_prefix _ _,
            ⟨ready.under, inside, ready.input, ready.counters⟩, by simp [after, exact_]⟩
        · simp [added, inside] at returned
  · rintro ⟨rfl, parsed⟩
    have short := parsed.consumed.length_le
    have added : checkedAdd decoder.offset taken.length =
        some (decoder.offset + taken.length) :=
      checkedAdd_eq_some.mpr ⟨by omega, rfl⟩
    have inside : decoder.offset + taken.length ≤ decoder.input.length := by
      omega
    have same : (decoder.input.drop decoder.offset).take taken.length = taken :=
      (List.prefix_iff_eq_take.mp parsed.consumed).symm
    refine ⟨decoder, decoder, ⟨rfl, rfl⟩, ?_⟩
    rw [← parsed.state]
    simp only [added, inside, same, after, add_zero, if_true]
    rfl

theorem length_of_take {length : Nat} (returned : take length decoder = .ok (bytes, result)) :
    bytes.length = length := by
  simp only [take, Method.bind_eq_ok, Method.get_eq_ok, Prod.mk.injEq] at returned
  obtain ⟨_, _, ⟨rfl, rfl⟩, returned⟩ := returned
  cases added : checkedAdd decoder.offset length with
  | none => simp [added] at returned
  | some finish =>
      obtain ⟨_, rfl⟩ := checkedAdd_eq_some.mp added
      by_cases inside : decoder.offset + length ≤ decoder.input.length
      · simp only [added, inside, if_true, Method.bind_eq_ok, Method.set_eq_ok,
          Method.pure_eq_ok, Prod.mk.injEq] at returned
        obtain ⟨_, _, ⟨_, rfl⟩, rfl, rfl⟩ := returned
        rw [List.length_take, List.length_drop]
        omega
      · simp [added, inside] at returned

/-- `take` returns as many bytes as the indices and the array after it need. -/
theorem u16_eq (decoder : Decoder) :
    u16 decoder = (take 2 >>= fun bytes => pure (u16OfBytes bytes)) decoder := by
  apply Method.bind_congr_of_ok
  intro bytes middle returned
  obtain ⟨high, low, rfl⟩ := List.length_eq_two.mp (length_of_take returned)
  rfl

theorem u32_eq (decoder : Decoder) :
    u32 decoder = (take 4 >>= fun bytes => pure (u32OfBytes bytes)) decoder := by
  apply Method.bind_congr_of_ok
  intro bytes middle returned
  rw [expectArray_of_length (length_of_take returned)]
  rfl

theorem u16_parses : Parses limits u16 (fun _ => True) u16Bytes (fun _ => 0) := by
  rw [funext u16_eq]
  refine ((take_parses 2).bind (fun read => parses_pure (u16OfBytes read)) u16Bytes
    ?_).congr ?_ ?_
  · rintro read _ width rfl
    exact u16Bytes_u16OfBytes width
  · simp
  · simp

theorem u32_parses : Parses limits u32 (fun _ => True) u32Bytes (fun _ => 0) := by
  rw [funext u32_eq]
  refine ((take_parses 4).bind (fun read => parses_pure (u32OfBytes read)) u32Bytes
    ?_).congr ?_ ?_
  · rintro read _ width rfl
    exact u32Bytes_u32OfBytes width
  · simp
  · simp

theorem charge_parses (kind : Counted) (amount : Nat) :
    Parses limits (charge kind amount) (fun _ => True) (fun _ => [])
      (fun _ => Pi.single kind amount) := by
  intro decoder result done ready
  have room : Parsed limits decoder [] (Pi.single kind amount) result ↔
      decoder.counters kind + amount ≤ limits.bound kind ∧
        decoder.after [] (Pi.single kind amount) = result := by
    constructor
    · rintro ⟨_, afterwards, rfl⟩
      exact ⟨by simpa [after] using afterwards.counters kind, rfl⟩
    · rintro ⟨within, rfl⟩
      refine ⟨List.nil_prefix, ⟨ready.under, ready.offset, ready.input, ?_⟩, rfl⟩
      intro other
      by_cases same : other = kind
      · subst same
        simpa [after] using within
      · simpa [after, Pi.single_eq_of_ne same] using ready.counters other
  rw [room, ← saturatingAdd_le_iff (limits.bound_le_usizeMax kind)]
  simp only [charge, bump, count, Method.bind_eq_ok, Method.get_eq_ok, Prod.mk.injEq]
  by_cases exceeded : limits.bound kind < saturatingAdd (decoder.counters kind) amount
  · simp [exceeded, ready.under]
  · by_cases overflow : usizeMax < decoder.counters kind + amount
    · simp [exceeded, overflow, ready.under]
    · simp [exceeded, overflow, ready.under, after]

/-! ## Entries -/

theorem field_parses (kind : String) (limit : Nat) :
    Parses limits (field kind limit)
      (fun read => read.length ≤ 65535 ∧ read.length ≤ limit) fieldBytes
      (fun read => Pi.single .decodedBytes read.length) := by
  have body (length : UInt16) : Parses limits _ _ _ _ := ((take_parses length.toNat).bind
    (fun read => (charge_parses .decodedBytes length.toNat).bind
      (fun _ => parses_pure read) (fun _ => ()) (fun _ _ _ _ => rfl))
    (fun read => read) (fun _ _ _ same => same.2)).guard (limit < length.toNat)
      (.limit kind length.toNat limit)
  have width {read : Bytes}
      (same : read.length = (UInt16.ofNat read.length).toNat) : read.length ≤ 65535 := by
    rw [same]
    exact Nat.le_of_lt_succ (UInt16.toNat_lt _)
  refine (u16_parses.bind body (fun read => UInt16.ofNat read.length) ?_).congr ?_ ?_
  · rintro length read _ ⟨_, same, _⟩
    rw [same]
    exact UInt16.ofNat_toNat
  · rintro read ⟨_, _, same, _⟩
    simp only [u16Bytes, ← same, fieldBytes, List.append_nil, zero_add,
      add_zero, and_self]
  · intro read
    constructor
    · rintro ⟨_, within, same, _⟩
      rw [← same] at within
      exact ⟨width same, Nat.not_lt.mp within⟩
    · rintro ⟨small, within⟩
      have same : (UInt16.ofNat read.length).toNat = read.length :=
        UInt16.toNat_ofNat_of_lt' (Nat.lt_succ_of_le small)
      exact ⟨trivial, by rw [same]; exact Nat.not_lt.mpr within, same.symm, trivial, rfl⟩

theorem entry_parses :
    Parses limits entry
      (fun read => read.1.Canonical ∧ NameFits limits read.2.1 ∧ RawFits limits read.2.2)
      (fun read => entryBytes read.1.toByte read.2.1 read.2.2)
      (fun read => entryCost read.2.1 read.2.2) := by
  have body : Parses limits _ _ _ _ := byte_parses.bind
    (fun tag => (field_parses "name bytes" limits.maxNameBytes.toNat).bind
      (fun name => (field_parses "value bytes" limits.maxValueBytes.toNat).bind
        (fun raw => (charge_parses .values 1).bind
          (fun _ => parses_pure (ValueTag.fromByte tag, name, raw))
          (fun _ => ()) (fun _ _ _ _ => rfl))
        (fun read => read.2.2) (fun _ _ _ same => congrArg (·.2.2) same.2))
      (fun read => read.2.1) (fun _ _ _ same => congrArg (·.2.1) same.2.2))
    (fun read => read.1.toByte) (fun tag _ _ same => by
      rw [same.2.2.2, ValueTag.toByte_fromByte])
  refine (body.reading ?_).congr ?_ ?_
  · intro decoder same
    rw [same]
    rfl
  · intro read _
    simp [entryBytes, entryCost, add_assoc]
  · rintro ⟨tag, name, raw⟩
    constructor
    · rintro ⟨_, ⟨nameWire, nameShort⟩, ⟨rawWire, rawShort⟩, _, same⟩
      exact ⟨(Prod.mk.inj same).1.symm, ⟨nameWire, nameShort⟩, ⟨rawWire, rawShort⟩⟩
    · rintro ⟨canonical, nameFits, rawFits⟩
      refine ⟨trivial, ⟨nameFits.wire, nameFits.name⟩, ⟨rawFits.wire, rawFits.value⟩,
        trivial, ?_⟩
      rw [canonical]

/-! ## Scalars -/

theorem expectI32_of_length {bytes : Bytes} (width : bytes.length = 4) :
    expectI32 bytes = .ok (i32OfBytes bytes) := by
  rw [expectI32, expectArray_of_length width]
  rfl

/-- The word that starts at an index. -/
theorem expectI32_sliced {raw : Bytes} {start : Nat} (inside : start + 4 ≤ raw.length) :
    (sliced raw start (start + 4) >>= expectI32) =
      .ok (i32OfBytes ((raw.drop start).take 4)) := by
  have width : ((raw.drop start).take 4).length = 4 := by
    rw [List.length_take, List.length_drop]
    omega
  rw [sliced_of_le (Nat.le_add_right _ _) inside, Nat.add_sub_cancel_left]
  exact expectI32_of_length width

/-- The conversion behind the check of the length does not panic. -/
theorem exactI32_of_length {raw : Bytes} (width : raw.length = 4) (tag : ValueTag)
    (offset : Nat) : exactI32 raw tag offset = .ok (i32OfBytes raw) := by
  rw [exactI32, if_neg (not_not.mpr width), expectI32_of_length width]

theorem exactI32_of_length_ne {raw : Bytes} (width : raw.length ≠ 4) (tag : ValueTag)
    (offset : Nat) :
    exactI32 raw tag offset = fail (.invalidValue offset tag.toByte
      "integer and enum values must be exactly 4 bytes") :=
  if_pos width

theorem exactI32_eq_ok {raw : Bytes} {tag : ValueTag} {offset : Nat} {value : Int32} :
    exactI32 raw tag offset = .ok value ↔ i32Bytes value = raw := by
  by_cases width : raw.length = 4
  · simp only [exactI32_of_length width, Except.ok.injEq]
    constructor
    · rintro rfl
      exact i32Bytes_i32OfBytes width
    · rintro rfl
      exact i32OfBytes_i32Bytes value
  · simp only [exactI32_of_length_ne width, fail, reduceCtorEq, false_iff]
    rintro rfl
    exact width (length_i32Bytes value)

theorem map_eq_ok {α β : Type} {outcome : Outcome DecodeError α} {image : α → β} {value : β} :
    outcome.map image = .ok value ↔ ∃ source, outcome = .ok source ∧ image source = value := by
  cases outcome <;> simp [Except.map]

/-- The two words at the front of a byte string. -/
theorem words_of_bytes {raw : Bytes} (long : 8 ≤ raw.length) :
    i32Bytes (i32OfBytes (raw.take 4)) ++ i32Bytes (i32OfBytes ((raw.drop 4).take 4)) =
      raw.take 8 := by
  have first : (raw.take 4).length = 4 := by
    rw [List.length_take]
    omega
  have second : ((raw.drop 4).take 4).length = 4 := by
    rw [List.length_take, List.length_drop]
    omega
  rw [i32Bytes_i32OfBytes first, i32Bytes_i32OfBytes second]
  exact (List.take_add (l := raw) (i := 4) (j := 4)).symm

theorem bytes_of_words (first second : Int32) (tail : Bytes) :
    i32OfBytes ((i32Bytes first ++ i32Bytes second ++ tail).take 4) = first ∧
      i32OfBytes (((i32Bytes first ++ i32Bytes second ++ tail).drop 4).take 4) = second := by
  have front : (i32Bytes first ++ (i32Bytes second ++ tail)).take 4 = i32Bytes first :=
    List.take_left' (length_i32Bytes first)
  have back : (i32Bytes first ++ (i32Bytes second ++ tail)).drop 4 =
      i32Bytes second ++ tail := List.drop_left' (length_i32Bytes first)
  rw [List.append_assoc, front, back, List.take_left' (length_i32Bytes second)]
  exact ⟨i32OfBytes_i32Bytes first, i32OfBytes_i32Bytes second⟩

theorem decodeScalar_outOfBand {tag : ValueTag} (outOfBand : tag.isOutOfBand = true)
    {raw : Bytes} {offset : Nat} {data : ValueData} :
    decodeScalar tag raw offset = .ok data ↔ tag.fits data ∧ data.raw = raw := by
  have fits : tag.fits data ↔ data = .outOfBand := by
    cases data with
    | outOfBand => exact iff_of_true outOfBand rfl
    | bytes content => simp [ValueTag.fits, ValueTag.isOpaque, outOfBand]
    | _ =>
        refine iff_of_false ?_ nofun
        intro same
        rw [of_decide_eq_true same] at outOfBand
        cases outOfBand
  rw [fits]
  simp only [decodeScalar, outOfBand, if_true]
  cases raw with
  | nil =>
      simp only [List.isEmpty_nil, Bool.not_true, Bool.false_eq_true, if_false,
        Except.ok.injEq]
      constructor
      · rintro rfl
        exact ⟨rfl, rfl⟩
      · rintro ⟨rfl, _⟩
        rfl
  | cons first tail =>
      simp only [List.isEmpty_cons, Bool.not_false, if_true, fail, reduceCtorEq, false_iff]
      rintro ⟨rfl, impossible⟩
      cases impossible

theorem decodeScalar_opaque {tag : ValueTag} (isOpaque : tag.isOpaque = true)
    {raw : Bytes} {offset : Nat} {data : ValueData} :
    decodeScalar tag raw offset = .ok data ↔ tag.fits data ∧ data.raw = raw := by
  have fits : tag.fits data ↔ ∃ content, data = .bytes content := by
    cases data with
    | bytes content => exact iff_of_true isOpaque ⟨content, rfl⟩
    | outOfBand =>
        refine iff_of_false ?_ nofun
        intro outOfBand
        change tag.isOutOfBand = true at outOfBand
        rw [ValueTag.isOpaque, outOfBand] at isOpaque
        cases isOpaque
    | _ =>
        refine iff_of_false ?_ nofun
        intro same
        rw [of_decide_eq_true same] at isOpaque
        cases isOpaque
  have decoded : decodeScalar tag raw offset = .ok (.bytes raw) := by
    cases tag <;> simp [ValueTag.isOpaque, ValueTag.isOutOfBand] at isOpaque <;> rfl
  rw [fits, decoded, Except.ok.injEq]
  constructor
  · rintro rfl
    exact ⟨⟨raw, rfl⟩, rfl⟩
  · rintro ⟨⟨content, rfl⟩, rfl⟩
    rfl

theorem decodeScalar_boolean {raw : Bytes} {offset : Nat} {data : ValueData} :
    decodeScalar .boolean raw offset = .ok data ↔
      ValueTag.boolean.fits data ∧ data.raw = raw := by
  have fits : ValueTag.boolean.fits data ↔ ∃ value, data = .boolean value := by
    cases data <;> simp [ValueTag.fits, ValueTag.isOutOfBand, ValueTag.isOpaque]
  rw [fits]
  constructor
  · intro decoded
    simp only [decodeScalar, ValueTag.isOutOfBand, Bool.false_eq_true, if_false] at decoded
    split at decoded
    · cases decoded
      exact ⟨⟨false, rfl⟩, rfl⟩
    · cases decoded
      exact ⟨⟨true, rfl⟩, rfl⟩
    · cases decoded
  · rintro ⟨⟨value, rfl⟩, rfl⟩
    cases value <;> rfl

theorem decodeScalar_dateTime {raw : Bytes} {offset : Nat} {data : ValueData} :
    decodeScalar .dateTime raw offset = .ok data ↔
      ValueTag.dateTime.fits data ∧ data.raw = raw := by
  have fits : ValueTag.dateTime.fits data ↔ ∃ value, data = .dateTime value := by
    cases data <;> simp [ValueTag.fits, ValueTag.isOutOfBand, ValueTag.isOpaque]
  rw [fits]
  simp only [decodeScalar, ValueTag.isOutOfBand, Bool.false_eq_true, if_false]
  constructor
  · intro decoded
    split at decoded
    · cases decoded
      exact ⟨⟨_, rfl⟩, rfl⟩
    · cases decoded
  · rintro ⟨⟨value, rfl⟩, rfl⟩
    exact dif_pos value.2

/-- Nine bytes hold the two words and the byte behind them. -/
theorem decodeScalar_nine {raw : Bytes} (width : raw.length = 9) (offset : Nat) :
    decodeScalar .resolution raw offset =
      .ok (.resolution (i32OfBytes (raw.take 4)) (i32OfBytes ((raw.drop 4).take 4))
        (raw.getD 8 0)) := by
  have first := @expectI32_sliced raw 0 (by omega)
  have second := @expectI32_sliced raw 4 (by omega)
  have last : raw[8]? = some (raw.getD 8 0) := by
    have inside : 8 < raw.length := by omega
    rw [List.getD_eq_getElem?_getD, List.getElem?_eq_getElem inside, Option.getD_some]
  simp only [decodeScalar, ValueTag.isOutOfBand, Bool.false_eq_true, if_false, width, if_true]
  rw [← bind_assoc, first]
  change ((sliced raw 4 8 >>= fun word => expectI32 word >>= _) = _)
  rw [← bind_assoc, second, indexed_of_getElem? last]
  rfl

theorem decodeScalar_eight {raw : Bytes} (width : raw.length = 8) (offset : Nat) :
    decodeScalar .rangeOfInteger raw offset =
      .ok (.rangeOfInteger (i32OfBytes (raw.take 4)) (i32OfBytes ((raw.drop 4).take 4))) := by
  have first := @expectI32_sliced raw 0 (by omega)
  have second := @expectI32_sliced raw 4 (by omega)
  simp only [decodeScalar, ValueTag.isOutOfBand, Bool.false_eq_true, if_false, width, if_true]
  rw [← bind_assoc, first]
  change ((sliced raw 4 8 >>= fun word => expectI32 word >>= _) = _)
  rw [← bind_assoc, second]
  rfl

theorem decodeScalar_resolution {raw : Bytes} {offset : Nat} {data : ValueData} :
    decodeScalar .resolution raw offset = .ok data ↔
      ValueTag.resolution.fits data ∧ data.raw = raw := by
  have fits : ValueTag.resolution.fits data ↔
      ∃ crossFeed feed units, data = .resolution crossFeed feed units := by
    cases data <;> simp [ValueTag.fits, ValueTag.isOutOfBand, ValueTag.isOpaque]
  rw [fits]
  constructor
  · intro decoded
    by_cases width : raw.length = 9
    · simp only [decodeScalar_nine width, Except.ok.injEq] at decoded
      subst decoded
      refine ⟨⟨_, _, _, rfl⟩, ?_⟩
      have last : [raw.getD 8 0] = raw.drop 8 := by
        have inside : 8 < raw.length := by omega
        rw [List.drop_eq_getElem_cons inside, List.drop_of_length_le (by omega),
          List.getD_eq_getElem?_getD, List.getElem?_eq_getElem inside, Option.getD_some]
      rw [ValueData.raw, words_of_bytes (by omega), last, List.take_append_drop]
    · simp [decodeScalar, ValueTag.isOutOfBand, width, fail] at decoded
  · rintro ⟨⟨crossFeed, feed, units, rfl⟩, rfl⟩
    have words := bytes_of_words crossFeed feed [units]
    rw [decodeScalar_nine (by simp [ValueData.raw])]
    simp only [ValueData.raw, words.1, words.2]
    simp

theorem decodeScalar_rangeOfInteger {raw : Bytes} {offset : Nat} {data : ValueData} :
    decodeScalar .rangeOfInteger raw offset = .ok data ↔
      ValueTag.rangeOfInteger.fits data ∧ data.raw = raw := by
  have fits : ValueTag.rangeOfInteger.fits data ↔
      ∃ lower upper, data = .rangeOfInteger lower upper := by
    cases data <;> simp [ValueTag.fits, ValueTag.isOutOfBand, ValueTag.isOpaque]
  rw [fits]
  constructor
  · intro decoded
    by_cases width : raw.length = 8
    · simp only [decodeScalar_eight width, Except.ok.injEq] at decoded
      subst decoded
      refine ⟨⟨_, _, rfl⟩, ?_⟩
      rw [ValueData.raw, words_of_bytes (by omega), List.take_of_length_le (by omega)]
    · simp [decodeScalar, ValueTag.isOutOfBand, width, fail] at decoded
  · rintro ⟨⟨lower, upper, rfl⟩, rfl⟩
    have words := bytes_of_words lower upper []
    rw [List.append_nil] at words
    rw [decodeScalar_eight (by simp [ValueData.raw])]
    simp only [ValueData.raw, words.1, words.2]

theorem decodeScalar_eq_ok {tag : ValueTag} {raw : Bytes} {offset : Nat}
    {data : ValueData} (scalar : tag ≠ .begCollection) :
    decodeScalar tag raw offset = .ok data ↔ tag.fits data ∧ data.raw = raw := by
  by_cases outOfBand : tag.isOutOfBand
  · exact decodeScalar_outOfBand outOfBand
  by_cases isOpaque : tag.isOpaque
  · exact decodeScalar_opaque isOpaque
  cases tag with
  | integer =>
      change (exactI32 raw .integer offset).map ValueData.integer = .ok data ↔ _
      simp only [map_eq_ok, exactI32_eq_ok]
      cases data <;> simp [ValueTag.fits, ValueTag.isOutOfBand, ValueTag.isOpaque, ValueData.raw]
  | enum =>
      change (exactI32 raw .enum offset).map ValueData.enum = .ok data ↔ _
      simp only [map_eq_ok, exactI32_eq_ok]
      cases data <;> simp [ValueTag.fits, ValueTag.isOutOfBand, ValueTag.isOpaque, ValueData.raw]
  | boolean => exact decodeScalar_boolean
  | dateTime => exact decodeScalar_dateTime
  | resolution => exact decodeScalar_resolution
  | rangeOfInteger => exact decodeScalar_rangeOfInteger
  | begCollection => exact absurd rfl scalar
  | _ => simp [ValueTag.isOpaque, ValueTag.isOutOfBand] at outOfBand isOpaque

end Decoder

end PrinterSdk.Ipp
