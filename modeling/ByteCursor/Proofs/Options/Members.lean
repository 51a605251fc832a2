import ByteCursor.Proofs.Options.Text

set_option autoImplicit false

namespace ByteCursor.Options

open Json

def get (options : Options) : Field → Option Nat
  | .initialCapacity => some options.initialCapacity.toNat
  | .fillByte => some options.fillByte.toNat
  | .significantDigits => some options.significantDigits.toNat
  | .maxCapacity => options.maxCapacity.map UInt64.toNat

theorem get_ext {first second : Options} (same : ∀ field, first.get field = second.get field) :
    first = second := by
  have limits : first.maxCapacity = second.maxCapacity :=
    Option.map_injective (fun _ _ => UInt64.toNat_inj.mp) (same .maxCapacity)
  have sizes := same .initialCapacity
  have fills := same .fillByte
  have counts := same .significantDigits
  simp only [get, Option.some.injEq, UInt64.toNat_inj, UInt8.toNat_inj] at sizes fills counts
  cases first
  cases second
  simp_all

namespace Field

def most : Field → Nat
  | fillByte => 255
  | _ => 2 ^ 64 - 1

inductive Takes : Field → Value → Option Nat → Prop
  | number {field : Field} {digits : List Char}
      (fits : Nat.ofDigitChars 10 digits 0 ≤ field.most) :
      Takes field (.number ⟨false, digits, none, none⟩) (some (Nat.ofDigitChars 10 digits 0))
  | null : Takes maxCapacity .null none

variable {field : Field} {value : Value} {x y : Option Nat}

theorem Takes.unique (first : field.Takes value x) (second : field.Takes value y) : x = y := by
  cases first <;> cases second <;> rfl

theorem Takes.ofNat {n : Nat} (fits : n ≤ field.most) :
    field.Takes (.number (.ofNat n)) (some n) := by
  have same : Nat.ofDigitChars 10 (Nat.toDigits 10 n) 0 = n := Nat.ofDigitChars_ten_toDigits
  rw [← same] at fits
  simpa only [same, Number.ofNat] using Takes.number fits

theorem lt_bound_iff (field : Field) (n : Nat) : n < field.bound ↔ n ≤ field.most := by
  cases field <;> simp only [bound, most] <;> omega

end Field

variable {options result : Options} {field : Field} {value : Value} {x : Option Nat}

theorem get_setNumber (options : Options) {n : Nat} (field : Field) (fits : n ≤ field.most) :
    (options.setNumber n field).get field = some n := by
  have small := (field.lt_bound_iff n).mpr fits
  cases field <;> simpa [setNumber, get, Field.bound] using small

theorem get_setNumber_of_ne (options : Options) (n : Nat) {field other : Field}
    (different : other ≠ field) : (options.setNumber n field).get other = options.get other := by
  cases field <;> cases other <;> first | rfl | exact absurd rfl different

theorem set?_takes (options : Options) (takes : field.Takes value x) :
    ∃ result, options.set? field value = some result ∧ result.get field = x ∧
      ∀ other, other ≠ field → result.get other = options.get other := by
  cases takes with
  | @number _ digits fits =>
      refine ⟨options.setNumber (Nat.ofDigitChars 10 digits 0) field, ?_,
        get_setNumber options field fits, fun other => get_setNumber_of_ne options _⟩
      have small := (field.lt_bound_iff _).mpr fits
      cases field <;> simp [set?, Number.toNat?, small]
  | null =>
      refine ⟨{ options with maxCapacity := none }, rfl, rfl, fun other different => ?_⟩
      cases other <;> first | rfl | exact absurd rfl different

theorem takes_of_set? (set : options.set? field value = some result) :
    ∃ x, field.Takes value x := by
  unfold set? at set
  split at set
  · exact ⟨none, .null⟩
  · next literal =>
      obtain ⟨n, plain, fits⟩ := Option.bind_eq_some_iff.mp set
      simp only [Option.ite_none_right_eq_some] at fits
      unfold Number.toNat? at plain
      split at plain
      · cases plain
        exact ⟨_, .number ((field.lt_bound_iff _).mp fits.1)⟩
      · cases plain
  · cases set

theorem set?_eq_some (set : options.set? field value = some result) :
    field.Takes value (result.get field) ∧
      ∀ other, other ≠ field → result.get other = options.get other := by
  obtain ⟨x, takes⟩ := takes_of_set? set
  obtain ⟨_, same, here, others⟩ := set?_takes options takes
  obtain rfl := Option.some.inj (same.symm.trans set)
  exact ⟨here ▸ takes, others⟩

structure Settles (given : List (Field × Value)) (base options : Options) : Prop where
  once : (given.map Prod.fst).Nodup
  taken : ∀ pair ∈ given, pair.1.Takes pair.2 (options.get pair.1)
  others : ∀ field, field ∉ given.map Prod.fst → options.get field = base.get field

theorem settles_nil_iff {base : Options} : Settles [] base options ↔ base = options := by
  constructor
  · intro settles
    exact get_ext fun field => (settles.others field (by simp)).symm
  · rintro rfl
    exact ⟨.nil, by simp, fun _ _ => rfl⟩

theorem settles_cons_iff {pair : Field × Value} {given : List (Field × Value)}
    {base next : Options} (set : base.set? pair.1 pair.2 = some next) :
    Settles (pair :: given) base options ↔
      pair.1 ∉ given.map Prod.fst ∧ Settles given next options := by
  obtain ⟨takes, kept⟩ := set?_eq_some set
  constructor
  · rintro ⟨once, taken, others⟩
    obtain ⟨fresh, later⟩ := List.nodup_cons.mp once
    obtain ⟨first, rest⟩ := List.forall_mem_cons.mp taken
    refine ⟨fresh, later, rest, fun field absent => ?_⟩
    by_cases same : field = pair.1
    · rw [same]
      exact first.unique takes
    · rw [kept field same]
      exact others field (by simp [same, absent])
  · rintro ⟨fresh, later, rest, others⟩
    refine ⟨List.nodup_cons.mpr ⟨fresh, later⟩, List.forall_mem_cons.mpr ⟨?_, rest⟩,
      fun field absent => ?_⟩
    · rw [others _ fresh]
      exact takes
    · obtain ⟨different, absent⟩ := not_or.mp (List.mem_cons.not.mp absent)
      rw [others field absent, kept field different]

theorem exists_settles_iff {given : List (Field × Value)} (base : Options) :
    (∃ options, Settles given base options) ↔
      (given.map Prod.fst).Nodup ∧ ∀ pair ∈ given, ∃ x, pair.1.Takes pair.2 x := by
  constructor
  · rintro ⟨options, settles⟩
    exact ⟨settles.once, fun pair mem => ⟨_, settles.taken pair mem⟩⟩
  · rintro ⟨once, takes⟩
    induction given generalizing base with
    | nil => exact ⟨base, settles_nil_iff.mpr rfl⟩
    | cons pair given ih =>
        obtain ⟨fresh, later⟩ := List.nodup_cons.mp once
        obtain ⟨⟨x, first⟩, rest⟩ := List.forall_mem_cons.mp takes
        obtain ⟨next, set, _⟩ := set?_takes base first
        obtain ⟨options, settles⟩ := ih next later rest
        exact ⟨options, (settles_cons_iff set).mpr ⟨fresh, settles⟩⟩

theorem Settles.perm {given other : List (Field × Value)} {base : Options}
    (perm : given.Perm other) (settles : Settles given base options) :
    Settles other base options := by
  refine ⟨(perm.map _).nodup_iff.mp settles.once,
    fun pair mem => settles.taken pair (perm.mem_iff.mpr mem), fun field absent => ?_⟩
  exact settles.others field fun mem => absent ((perm.map _).mem_iff.mp mem)

def Draft.give? (draft : Draft) (pair : Field × Value) : Option Draft :=
  if pair.1 ∈ draft.given then none
  else return ⟨← draft.options.set? pair.1 pair.2, pair.1 :: draft.given⟩

theorem foldlM_give?_iff {given : List (Field × Value)} (draft : Draft) :
    (given.foldlM Draft.give? draft).map Draft.options = some options ↔
      Settles given draft.options options ∧ ∀ field ∈ given.map Prod.fst, field ∉ draft.given := by
  induction given generalizing draft with
  | nil => simp [settles_nil_iff]
  | cons pair given ih =>
      by_cases present : pair.1 ∈ draft.given
      · simp [Draft.give?, present]
      · cases set : draft.options.set? pair.1 pair.2 with
        | none =>
            have refused : ¬ Settles (pair :: given) draft.options options := by
              intro settles
              obtain ⟨_, other, _⟩ :=
                set?_takes draft.options (settles.taken pair List.mem_cons_self)
              rw [set] at other
              cases other
            simp [Draft.give?, present, set, refused]
        | some next =>
            have step : draft.give? pair = some ⟨next, pair.1 :: draft.given⟩ := by
              simp [Draft.give?, present, set]
            have fresh : (∀ field ∈ given.map Prod.fst, field ∉ pair.1 :: draft.given) ↔
                pair.1 ∉ given.map Prod.fst ∧
                  ∀ field ∈ given.map Prod.fst, field ∉ draft.given := by
              simp only [List.mem_cons, not_or, forall_and, List.forall_mem_ne']
            rw [List.foldlM_cons, step, Option.bind_eq_bind, Option.bind_some, ih, fresh,
              settles_cons_iff set, List.map_cons, List.forall_mem_cons]
            simp only [present, not_false_eq_true, true_and]
            exact ⟨fun ⟨settles, absent, others⟩ => ⟨⟨absent, settles⟩, others⟩,
              fun ⟨⟨absent, settles⟩, others⟩ => ⟨settles, absent, others⟩⟩

theorem foldlM_set?_eq {given : List (Field × Value)} (draft : Draft)
    (once : (given.map Prod.fst).Nodup)
    (fresh : ∀ field ∈ given.map Prod.fst, field ∉ draft.given) :
    given.foldlM (fun options (field, value) => options.set? field value) draft.options =
      (given.foldlM Draft.give? draft).map Draft.options := by
  induction given generalizing draft with
  | nil => rfl
  | cons pair given ih =>
      obtain ⟨other, later⟩ := List.nodup_cons.mp once
      obtain ⟨here, rest⟩ := List.forall_mem_cons.mp fresh
      rw [List.foldlM_cons, List.foldlM_cons]
      cases set : draft.options.set? pair.1 pair.2 with
      | none => simp [Draft.give?, here, set]
      | some next =>
          have step : draft.give? pair = some ⟨next, pair.1 :: draft.given⟩ := by
            simp [Draft.give?, here, set]
          rw [step]
          simp only [set, Option.bind_eq_bind, Option.bind_some]
          refine ih ⟨next, pair.1 :: draft.given⟩ later fun field mem => ?_
          rw [List.mem_cons, not_or]
          exact ⟨fun same => other (same ▸ mem), rest field mem⟩

def Names (member : List Piece × Value) (field : Field) : Prop :=
  Piece.decode? member.1 = some field.name.toList

def known (members : List (List Piece × Value)) : List (Field × Value) :=
  members.filterMap fun member =>
    ((Piece.decode? member.1).bind Field.ofName?).map fun field => (field, member.2)

theorem ofName?_eq_some_iff {name : List Char} {field : Field} :
    Field.ofName? name = some field ↔ name = field.name.toList := by
  constructor
  · intro found
    have same := List.find?_some found
    exact (beq_iff_eq.mp same).symm
  · rintro rfl
    exact Field.ofName?_name field

theorem names_iff {member : List Piece × Value} {field : Field} :
    (Piece.decode? member.1).bind Field.ofName? = some field ↔ Names member field := by
  simp only [Option.bind_eq_some_iff, ofName?_eq_some_iff, Names]
  exact ⟨fun ⟨_, decoded, same⟩ => same ▸ decoded, fun decoded => ⟨_, decoded, rfl⟩⟩

theorem mem_known {members : List (List Piece × Value)} {field : Field} {value : Value} :
    (field, value) ∈ known members ↔ ∃ member ∈ members, Names member field ∧ member.2 = value := by
  simp only [known, List.mem_filterMap, Option.map_eq_some_iff, names_iff, Prod.mk.injEq]
  constructor
  · rintro ⟨member, listed, _, names, rfl, same⟩
    exact ⟨member, listed, names, same⟩
  · rintro ⟨member, listed, names, same⟩
    exact ⟨member, listed, field, names, rfl, same⟩

theorem known_nodup_iff {members : List (List Piece × Value)} :
    ((known members).map Prod.fst).Nodup ↔
      members.Pairwise fun first second => ∀ field, Names first field → ¬ Names second field := by
  rw [known, List.map_filterMap, List.Nodup, List.pairwise_filterMap]
  refine List.Pairwise.iff fun {first second} => ?_
  simp only [Option.map_map, Function.comp_def, Option.map_id', names_iff]
  constructor
  · exact fun different field here there => different field here field there rfl
  · rintro different field here _ there rfl
    exact different field here there

theorem foldlM_add? {members : List (List Piece × Value)}
    (texts : ∀ member ∈ members, (Piece.decode? member.1).isSome) (draft : Draft) :
    members.foldlM Draft.add? draft = (known members).foldlM Draft.give? draft := by
  induction members generalizing draft with
  | nil => rfl
  | cons member members ih =>
      obtain ⟨first, rest⟩ := List.forall_mem_cons.mp texts
      obtain ⟨name, decoded⟩ := Option.isSome_iff_exists.mp first
      cases found : Field.ofName? name with
      | none =>
          have passed : draft.add? member = some draft := by
            simp [Draft.add?, decoded, found]
          have unknown : known (member :: members) = known members := by
            simp [known, decoded, found]
          rw [List.foldlM_cons, passed, unknown]
          exact ih rest draft
      | some field =>
          have given : draft.add? member = draft.give? (field, member.2) := by
            simp [Draft.add?, Draft.give?, decoded, found]
          have front : known (member :: members) = (field, member.2) :: known members := by
            simp [known, decoded, found]
          rw [List.foldlM_cons, given, front, List.foldlM_cons]
          exact bind_congr fun next => ih rest next

theorem ofMembers?_iff {members : List (List Piece × Value)}
    (texts : ∀ member ∈ members, (Piece.decode? member.1).isSome) :
    ofMembers? members = some options ↔ Settles (known members) standard options := by
  rw [ofMembers?, foldlM_add? texts, foldlM_give?_iff]
  simp [standard]

def named (items : List Value) : List (List Piece × Value) :=
  (Field.all.zip items).map fun (field, item) => (field.name.toList.map .plain, item)

theorem known_named (items : List Value) : known (named items) = Field.all.zip items := by
  have each : ∀ pair : Field × Value,
      ((Piece.decode? (pair.1.name.toList.map .plain)).bind Field.ofName?).map (·, pair.2) =
        some pair := by
    simp
  rw [known, named, List.filterMap_map]
  exact (List.filterMap_congr fun pair _ => each pair).trans List.filterMap_some

theorem texts_named (items : List Value) :
    ∀ member ∈ named items, (Piece.decode? member.1).isSome := by
  intro member mem
  obtain ⟨pair, _, rfl⟩ := List.mem_map.mp mem
  simp

theorem zip_fields_nodup (items : List Value) : ((Field.all.zip items).map Prod.fst).Nodup := by
  have fields : (Field.all.zip items).map Prod.fst =
      Field.all.take (min Field.all.length items.length) := by
    rw [List.zip_eq_zip_take_min, List.map_fst_zip]
    simp
  have different : Field.all.Nodup := by decide
  rw [fields]
  exact different.sublist (List.take_sublist _ _)

theorem ofItems?_named {items : List Value} (few : items.length ≤ Field.all.length) :
    ofItems? items = ofMembers? (named items) := by
  rw [ofItems?, if_pos few, ofMembers?, foldlM_add? (texts_named items), known_named]
  exact foldlM_set?_eq {} (zip_fields_nodup items) (by simp)

theorem named_wellFormed {items : List Value} (formed : ∀ item ∈ items, item.WellFormed) :
    (Value.object (named items)).WellFormed := by
  apply Value.wellFormed_object
  intro member mem
  obtain ⟨pair, listed, rfl⟩ := List.mem_map.mp mem
  exact ⟨pair.1.name_wellFormed, formed _ (List.of_mem_zip listed).2⟩

structure Writes (text : String) (v : Value) : Prop where
  formed : v.WellFormed
  spaced : Spaced v.tokens text.toList

theorem Writes.compact {v : Value} (formed : v.WellFormed) : Writes v.text v :=
  ⟨formed, v.spaced_text⟩

theorem Writes.ofText? {text : String} {v : Value} (writes : Writes text v) :
    ofText? text = ofValue? v := by
  rw [Options.ofText?, Value.ofText?_spaced writes.formed writes.spaced, Option.bind_some]

/-- An object is read as options if and only if no two of its members name one field and each field
named takes its value; neither the order of members nor any that name no field matter. An array is
read as the object that gives its items to the first fields. -/
theorem members_settle_options :
    (∀ (members : List (List Piece × Value)) (text : String), Writes text (.object members) →
      (∀ member ∈ members, (Piece.decode? member.1).isSome) →
      ((∃ options, ofText? text = some options) ↔
        (members.Pairwise fun first second => ∀ field, Names first field → ¬ Names second field) ∧
        ∀ field, ∀ member ∈ members, Names member field → ∃ x, field.Takes member.2 x) ∧
      (∀ options, ofText? text = some options → ∀ field,
        (∀ member ∈ members, Names member field → field.Takes member.2 (options.get field)) ∧
        ((∀ member ∈ members, ¬ Names member field) → options.get field = standard.get field)) ∧
      ∀ (others : List (List Piece × Value)) (other : String), Writes other (.object others) →
        (∀ member ∈ others, (Piece.decode? member.1).isSome) →
        (known members).Perm (known others) → ofText? text = ofText? other) ∧
    ∀ (items : List Value) (text : String), Writes text (.array items) →
      (items.length ≤ 4 → ∀ other : String, Writes other (.object (named items)) →
        ofText? text = ofText? other) ∧
      (4 < items.length → ofText? text = none) := by
  refine ⟨fun members text writes texts => ⟨?_, ?_, ?_⟩, fun items text writes => ⟨?_, ?_⟩⟩
  · simp only [writes.ofText?, ofValue?, ofMembers?_iff texts]
    rw [exists_settles_iff, known_nodup_iff]
    refine and_congr_right fun _ => ⟨?_, ?_⟩
    · intro takes field member mem names
      exact takes (field, member.2) (mem_known.mpr ⟨member, mem, names, rfl⟩)
    · rintro takes ⟨field, value⟩ listed
      obtain ⟨member, mem, names, rfl⟩ := mem_known.mp listed
      exact takes field member mem names
  · intro options read field
    rw [writes.ofText?, ofValue?, ofMembers?_iff texts] at read
    refine ⟨fun member mem names => ?_, fun absent => read.others field fun mem => ?_⟩
    · exact read.taken (field, member.2) (mem_known.mpr ⟨member, mem, names, rfl⟩)
    · obtain ⟨⟨_, value⟩, listed, rfl⟩ := List.mem_map.mp mem
      obtain ⟨member, present, names, _⟩ := mem_known.mp listed
      exact absent member present names
  · intro others other written texts_others perm
    rw [writes.ofText?, written.ofText?]
    apply Option.ext
    intro options
    simp only [ofValue?, ofMembers?_iff texts, ofMembers?_iff texts_others]
    exact ⟨.perm perm, .perm perm.symm⟩
  · intro few other written
    rw [writes.ofText?, written.ofText?]
    exact ofItems?_named few
  · intro many
    rw [writes.ofText?]
    exact if_neg (Nat.not_le_of_lt many)

-- A field with a letter escaped and a null out of order, with other members around them.
theorem members_settle_options_shuffled :
    let note := "note".toList.map Piece.plain
    let limit := "max_capacity".toList.map Piece.plain
    let fill := "fill".toList.map .plain ++ .hex '0' '0' '5' 'f' :: "byte".toList.map .plain
    let members : List (List Piece × Value) :=
      [(note, .array [.null, .object []]), (limit, .null), (note, .bool true),
        (fill, .number (.ofNat 255))]
    let items : List Value := [.number (.ofNat 7), .number (.ofNat 255)]
    (∃ options, ofText? (Value.object members).text = some options ∧
      options.get .fillByte = some 255 ∧ options.get .significantDigits = some 6) ∧
      ofText? (Value.object members).text = ofText? (Value.object members.reverse).text ∧
      ofText? (Value.array items).text = ofText? (Value.object (named items)).text ∧
      ofText? (Value.array (List.replicate 5 .null)).text = none := by
  intro note limit fill members items
  have number : ∀ n, (Value.number (.ofNat n)).WellFormed := fun n =>
    Value.wellFormed_number (Number.ofNat_wellFormed n)
  have formed : ∀ member ∈ members, (∀ p ∈ member.1, p.WellFormed) ∧ member.2.WellFormed := by
    have pieces : ∀ key ∈ [note, limit, fill], ∀ p ∈ key, p.WellFormed := by decide
    have nested : (Value.array [.null, .object []]).WellFormed :=
      Value.wellFormed_array (by simp [Value.wellFormed_null, Value.wellFormed_object])
    have yes : (Value.bool true).WellFormed := by
      simp [Value.WellFormed, Value.tokens, Token.WellFormed]
    simp only [List.forall_mem_cons] at pieces
    obtain ⟨first, second, third, _⟩ := pieces
    simp only [members, List.forall_mem_cons]
    exact ⟨⟨first, nested⟩, ⟨second, Value.wellFormed_null⟩, ⟨first, yes⟩, ⟨third, number 255⟩,
      by simp⟩
  have formed_items : ∀ item ∈ items, item.WellFormed := by simp [items, number]
  have writes := Writes.compact (Value.wellFormed_object formed)
  have turned : Writes _ (.object members.reverse) := .compact <|
    Value.wellFormed_object fun member mem => formed member (List.mem_reverse.mp mem)
  have texts : ∀ member ∈ members, (Piece.decode? member.1).isSome := by decide
  have listed : known members = [(.maxCapacity, .null), (.fillByte, .number (.ofNat 255))] := rfl
  have taken : ∀ field, ∀ member ∈ members, Names member field →
      ∃ x, field.Takes member.2 x := by
    intro field member mem names
    have pair : (field, member.2) ∈ known members := mem_known.mpr ⟨member, mem, names, rfl⟩
    simp only [listed, List.mem_cons, List.not_mem_nil, or_false, Prod.mk.injEq] at pair
    obtain ⟨rfl, same⟩ | ⟨rfl, same⟩ := pair
    · exact ⟨none, same ▸ Field.Takes.null⟩
    · exact ⟨some 255, same ▸ Field.Takes.ofNat (by decide)⟩
  obtain ⟨objects, arrays⟩ := members_settle_options
  obtain ⟨succeeds, settled, alike⟩ := objects members _ writes texts
  obtain ⟨options, read⟩ := succeeds.mpr ⟨known_nodup_iff.mp (by rw [listed]; decide), taken⟩
  refine ⟨⟨options, read, ?_, ?_⟩, ?_, ?_, ?_⟩
  · have names : Names (fill, .number (.ofNat 255)) .fillByte := rfl
    have takes := (settled options read .fillByte).1 _ (by simp [members]) names
    exact takes.unique (.ofNat (by decide))
  · refine (settled options read .significantDigits).2 fun member mem names => ?_
    have pair := mem_known.mpr ⟨member, mem, names, rfl⟩
    simp [listed] at pair
  · exact alike members.reverse _ turned (fun member mem => texts member (List.mem_reverse.mp mem))
      (List.Perm.swap _ _ _)
  · exact (arrays items _ (.compact (Value.wellFormed_array formed_items))).1 (by decide) _
      (.compact (named_wellFormed formed_items))
  · exact (arrays _ _ (.compact (Value.wellFormed_array (by simp [Value.wellFormed_null])))).2
      (by decide)

end ByteCursor.Options
