/-
**What is written is read back.**

* `Codec.ReadsBack`: a codec reads back every value that it writes, up to where the value ends. Each
  way to build a codec keeps this;
* `Fields.Faithful` asks this of the fields of a record, and that what is left out is what stands for
  it where it is missing. A record of such fields is read back if their names differ
  (`Fields.readsBack_record`): its members fill one slot after the other (`Fields.Fills`);
* `Codec.ReadsBack.decode`: the text of a value, and the bytes of that text, are decoded as the
  value.
-/

import StakingDirectory.Proofs.Json.Reader
import StakingDirectory.Proofs.Text.Utf8

namespace StakingDirectory.Json

open Reader

/-! ### Single values -/

namespace Codec

variable {α β : Type} {codec : Codec α}

/-- The codec reads back what it writes. -/
def ReadsBack (codec : Codec α) : Prop :=
  ∀ value, Restores codec.read value (codec.write value)

theorem ReadsBack.map (back : codec.ReadsBack) {into : α → β} {outOf : β → α}
    (inverse : ∀ value, into (outOf value) = value) : (codec.map into outOf).ReadsBack := by
  intro value rest closed
  have read := (back (outOf value) rest closed).map into
  rw [inverse] at read
  exact read

theorem readsBack_text : text.ReadsBack :=
  fun value rest _ => takes_string value rest

theorem readsBack_amount : amount.ReadsBack := by
  intro value rest closed
  show Takes Reader.amount (Json.chars (.number value.toNat)) value rest
  rw [chars_number]
  exact takes_amount value closed

theorem readsBack_flag : flag.ReadsBack :=
  fun value rest _ => takes_flag value rest

theorem readsBack_spelled {read : String → Except Hex.Fault α} {write : α → String}
    (back : ∀ value, read (write value) = .ok value) : (spelled read write).ReadsBack := by
  intro value rest _
  refine Takes.finish (takes_string (write value) rest) ?_
  rw [back]
  exact takes_pure value rest

theorem readsBack_name {read : String → Option α} {write : α → String}
    (back : ∀ value, read (write value) = some value) : (name read write).ReadsBack := by
  intro value rest _
  refine Takes.look (takes_peek rfl _) (Takes.finish (takes_string (write value) rest) ?_)
  rw [back]
  exact takes_pure value rest

/-- A value or `null`, where no value is written like `null`. -/
theorem ReadsBack.optional (back : codec.ReadsBack)
    (apart : ∀ value, (codec.write value).chars.head? ≠ some 'n') : codec.optional.ReadsBack := by
  intro value rest closed
  cases value with
  | none =>
    exact Takes.look (takes_peek rfl _) (Takes.finish (takes_nothing rest) rfl)
  | some value =>
    obtain ⟨first, others, spelled, solid, -⟩ := exists_front (codec.write value)
    have peeked : Takes peek [] (some first) ((codec.write value).chars.map some ++ rest) := by
      rw [spelled]
      exact takes_peek solid _
    have different := apart value
    rw [spelled] at different
    refine Takes.look peeked ?_
    split
    · rename_i same
      exact absurd same different
    · exact (back value rest closed).map some

theorem ReadsBack.list (back : codec.ReadsBack) : codec.list.ReadsBack :=
  fun values rest _ => takes_list values (fun value _ => back value) rest

/-- **The text of a value is decoded as that value.** -/
theorem ReadsBack.decode (back : codec.ReadsBack) (value : α) :
    codec.decode (Utf8.scanText (codec.encode value)) = .ok value := by
  have closed : Closed [] := by
    intro next member
    cases member
  have read := back value [] closed
  unfold Takes at read
  rw [List.append_nil] at read
  rw [Codec.decode, encode, render, Utf8.scanText, String.toList_ofList, read]
  rfl

end Codec

/-! ### Records -/

/-- A value that is left out is what stands for it where it is missing. -/
def Presence.Faithful {α : Type} (presence : Presence α) : Prop :=
  ∀ value, presence.omits value = true → presence.ifMissing = some value

theorem Presence.faithful_required {α : Type} : (Presence.required : Presence α).Faithful :=
  fun _ omitted => by cases omitted

theorem Presence.faithful_defaultTo {α : Type} [BEq α] [LawfulBEq α] (value : α) :
    (Presence.defaultTo value).Faithful := by
  intro other omitted
  rw [eq_of_beq omitted]
  rfl

theorem Presence.faithful_optional {α : Type} : (Presence.optional : Presence (Option α)).Faithful := by
  intro value omitted
  cases value with
  | none => rfl
  | some value => cases omitted

namespace Fields

/-- The names of all fields. -/
def names : {τ : Type} → Fields τ → List String
  | _, .done => []
  | _, .field name _ _ rest => name :: rest.names

/-- Every field is read back, and stands for itself where it is left out. -/
def Faithful : {τ : Type} → Fields τ → Prop
  | _, .done => True
  | _, .field _ codec presence rest =>
    codec.ReadsBack ∧ presence.Faithful ∧ rest.Faithful

/-- A field that is always written. -/
theorem Faithful.required {α β : Type} {name : String} {codec : Codec α} {rest : Fields β}
    (back : codec.ReadsBack) (others : rest.Faithful) :
    (Fields.field name codec .required rest).Faithful :=
  ⟨back, Presence.faithful_required, others⟩

/-- The fields that are met in what is written for the values. -/
def written : {τ : Type} → (fields : Fields τ) → τ → fields.Slots
  | _, .done, _ => ()
  | _, .field _ _ presence rest, (value, values) =>
    (if presence.omits value then none else some value, rest.written values)

variable {τ : Type} {fields : Fields τ}

/-- Members, read one after the other, lead from the fields that were met to others. -/
inductive Fills (fields : Fields τ) : fields.Slots → List (String × Json) → fields.Slots → Prop
  | nil (slots : fields.Slots) : Fills fields slots [] slots
  | cons {slots between last : fields.Slots} {name : String} {value : Json}
      {members : List (String × Json)} {reader : Reader fields.Slots}
      (found : fields.fill name slots = some reader)
      (takes : ∀ rest, Closed rest → Takes reader (':' :: value.chars) between rest)
      (later : Fills fields between members last) :
      Fills fields slots ((name, value) :: members) last

/-- Members for other fields leave a field alone. -/
theorem Fills.behind {α : Type} {slots last : fields.Slots} {members : List (String × Json)}
    (fills : Fills fields slots members last) (name : String) (codec : Codec α)
    (presence : Presence α) (slot : Option α) (apart : name ∉ members.map Prod.fst) :
    Fills (.field name codec presence fields) (slot, slots) members (slot, last) := by
  induction fills with
  | nil slots => exact .nil _
  | @cons slots between last other value members reader found takes later ih =>
    rw [List.map_cons, List.mem_cons, not_or] at apart
    let beside : Reader (Fields.field name codec presence fields).Slots := do
      return (slot, ← reader)
    have takes : ∀ rest, Closed rest → Takes beside (':' :: value.chars) (slot, between) rest :=
      fun rest closed => Takes.finish (takes rest closed) rfl
    refine .cons ?_ takes (ih apart.2)
    show (if other = name then _ else (fields.fill other slots).map _) = _
    rw [if_neg (Ne.symm apart.1), found]
    rfl

theorem names_members (fields : Fields τ) (values : τ) :
    (fields.members values).map Prod.fst ⊆ fields.names := by
  induction fields with
  | done => exact fun _ member => member
  | field name codec presence rest ih =>
    obtain ⟨value, values⟩ := values
    unfold members
    split
    · exact fun _ member => List.mem_cons_of_mem _ (ih values member)
    · exact List.cons_subset_cons _ (ih values)

/-- **The members that are written fill the fields that they are written for.** -/
theorem fills_members (distinct : fields.names.Nodup) (faithful : fields.Faithful) (values : τ) :
    Fills fields fields.empty (fields.members values) (fields.written values) := by
  induction fields with
  | done => exact .nil _
  | field name codec presence rest ih =>
    obtain ⟨value, values⟩ := values
    obtain ⟨back, -, others⟩ := faithful
    obtain ⟨fresh, distinct⟩ := List.nodup_cons.1 distinct
    have later := ih distinct others values
    have apart : name ∉ (rest.members values).map Prod.fst :=
      fun member => fresh (names_members rest values member)
    unfold members written
    split
    · exact later.behind name codec presence none apart
    · refine .cons (if_pos rfl) (fun tail closed => ?_)
        (later.behind name codec presence (some value) apart)
      exact Takes.bind [':'] (takes_token rfl _)
        (Takes.finish (back value tail closed) rfl)

/-- What was met, and what stands for the rest, is what was written. -/
theorem close_written (faithful : fields.Faithful) (values : τ) :
    fields.close (fields.written values) = some values := by
  induction fields with
  | done => rfl
  | field name codec presence rest ih =>
    obtain ⟨value, values⟩ := values
    obtain ⟨-, stands, others⟩ := faithful
    unfold close written
    dsimp only
    rw [ih others values]
    split
    · rename_i omitted
      rw [stands value omitted]
      rfl
    · rfl

theorem length_memberChars (members : List (String × Json)) :
    members.length < (memberChars members).length := by
  induction members with
  | nil => simp [memberChars]
  | cons member rest ih =>
    simp only [memberChars, List.length_cons, List.length_append]
    omega

/-- Members are read up to the end of their object. -/
theorem takes_members {slots last : fields.Slots} {name : String} {value : Json}
    {others : List (String × Json)} (fills : Fills fields slots ((name, value) :: others) last)
    {bound : Text} (long : others.length < bound.length) (rest : Text) :
    Takes (fields.readMembers bound slots)
      (quoted name ++ ':' :: (value.chars ++ memberChars others)) last rest := by
  induction others generalizing slots name value bound with
  | nil =>
    obtain ⟨mark, bound, rfl⟩ := List.exists_cons_of_length_pos long
    obtain - | ⟨found, takes, later⟩ := fills
    cases later
    refine Takes.bind _ (takes_string name _) ?_
    rw [found]
    refine Takes.bind (':' :: value.chars) (takes _ (closed_of_mem (by simp) _)) ?_
    exact Takes.look (takes_peek rfl _) (Takes.finish (takes_drop _ _) rfl)
  | cons next others ih =>
    obtain ⟨mark, bound, rfl⟩ := List.exists_cons_of_length_pos (Nat.zero_lt_of_lt long)
    obtain - | ⟨found, takes, later⟩ := fills
    refine Takes.bind _ (takes_string name _) ?_
    rw [found]
    refine Takes.bind (':' :: value.chars) (takes _ (closed_of_mem (by simp) _)) ?_
    exact Takes.look (takes_peek rfl _)
      (Takes.bind _ (takes_drop _ _) (ih later (by simpa using long)))

/-- **A record is read back**, if its fields are and no two of them share a name. -/
theorem readsBack_record (distinct : fields.names.Nodup) (faithful : fields.Faithful) :
    fields.record.ReadsBack := by
  intro values rest _
  have fills := fills_members distinct faithful values
  have closes := close_written faithful values
  show Takes fields.record.read (Json.chars (.object (fields.members values))) values rest
  generalize fields.members values = members at fills ⊢
  generalize fields.written values = slots at fills closes
  cases members with
  | nil =>
    cases fills
    refine Takes.look (takes_peek rfl _) (Takes.bind _ (takes_drop _ _) ?_)
    refine Takes.look (takes_peek rfl _) (Takes.finish (takes_drop _ _) ?_)
    refine Takes.finish (takes_pure fields.empty rest) ?_
    dsimp only
    rw [closes]
    exact takes_pure values rest
  | cons member others =>
    have long : others.length < ((quoted member.1 ++
        ':' :: (member.2.chars ++ memberChars others)).map some ++ rest).length := by
      have short := length_memberChars others
      simp only [List.length_append, List.length_map, List.length_cons]
      omega
    refine Takes.look (takes_peek rfl _) (Takes.bind _ (takes_drop _ _) ?_)
    refine Takes.look (takes_peek rfl _) ?_
    refine Takes.look (takes_get _) (Takes.finish (takes_members fills long rest) ?_)
    dsimp only
    rw [closes]
    exact takes_pure values rest

end Fields

end StakingDirectory.Json
