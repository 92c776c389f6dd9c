/-
**Which headers carry a token.**

* `IsFirst` picks the header that decides: the first of its name, whatever the case of the name;
* `Carries` is what its value has to be, in bytes: plain bytes that spell the scheme, one blank and
  a token, which is not empty and has no blank;
* `Reads` says what becomes of headers by these two, and it is what the reader does
  (`token_eq_iff`). Plain bytes are the text that their codes spell (`chars_eq_iff`), so that the
  reader may look for the two parts of the value among characters (`carries_iff`).

What `value` writes for a token is read back if the token can be sent at all (`Sendable`), and
tokens in the text form of random identifiers can (`IsIdentifier.sendable`).
-/

import StakingDirectory.Http.Bearer
import StakingDirectory.Proofs.Service.Command
import StakingDirectory.Proofs.Text.HexGrammar
import StakingDirectory.Proofs.Text.Split
import StakingDirectory.Proofs.Text.Utf8

namespace StakingDirectory.Bearer

/-! ### The grammar -/

/-- The first header that is named `Authorization`, in letters of either case. -/
def IsFirst (headers : List Header) (header : Header) : Prop :=
  header.1.toLower = "authorization" ∧
    ∃ before after, headers = before ++ header :: after ∧
      ∀ other ∈ before, other.1.toLower ≠ "authorization"

/-- The code of a tab, of a blank or of a visible character. -/
def Plain (code : Nat) : Prop := code = 9 ∨ 32 ≤ code ∧ code ≤ 126

instance (code : Nat) : Decidable (Plain code) := inferInstanceAs (Decidable (_ ∨ _))

/-- The value of a header carries a token. -/
structure Carries (bytes : Bytes) (token : String) : Prop where
  plain : ∀ byte ∈ bytes, Plain byte.toNat
  spelled : bytes = Bytes.ofText ("Bearer " ++ token)
  filled : token ≠ ""
  whole : ' ' ∉ token.toList

/-- What headers are read as: the first one of the name decides. -/
def Reads (headers : List Header) : Except Refusal String → Prop
  | .ok text => ∃ header, IsFirst headers header ∧ Carries header.2 text
  | .error .missingAuthHeader => ∀ header ∈ headers, header.1.toLower ≠ "authorization"
  | .error .invalidAuthHeader =>
    ∃ header, IsFirst headers header ∧ ∀ text, ¬ Carries header.2 text
  | .error _ => False

/-- A token that a header can carry. -/
structure Sendable (token : String) : Prop where
  plain : ∀ char ∈ token.toList, Plain char.toNat
  filled : token ≠ ""
  whole : ' ' ∉ token.toList

/-- The text form of a random identifier: five groups of digits with dashes between them. -/
def IsIdentifier (text : String) : Prop :=
  ∃ groups, text.toList = Text.joinAll '-' groups ∧
    groups.map List.length = [8, 4, 4, 4, 12] ∧
    ∀ group ∈ groups, group ⊆ Hex.alphabet

/-! ### Plain bytes and their characters -/

/-- The characters that bytes are the codes of. -/
def chars (bytes : Bytes) : List Char := bytes.map fun byte => Char.ofNat byte.toNat

theorem Plain.lt {code : Nat} (plain : Plain code) : code < 128 := by
  unfold Plain at plain
  omega

theorem isPlain_iff {byte : UInt8} : isPlain byte ↔ Plain byte.toNat := by
  simp only [isPlain, Plain, Bool.or_eq_true, beq_iff_eq, Bool.and_eq_true, decide_eq_true_eq,
    UInt8.le_iff_toNat_le, UInt8.lt_iff_toNat_lt, ← UInt8.toNat_inj]
  show byte.toNat = 9 ∨ 32 ≤ byte.toNat ∧ byte.toNat < 127 ↔ _
  omega

theorem toNat_ofNat_of_lt {code : Nat} (small : code < 128) : (Char.ofNat code).toNat = code := by
  have valid : code.isValidChar := .inl (by omega)
  rw [Char.ofNat, dif_pos valid]
  rfl

theorem ofText_chars {bytes : Bytes} (small : ∀ byte ∈ bytes, byte.toNat < 128) :
    Bytes.ofText (String.ofList (chars bytes)) = bytes := by
  rw [Bytes.ofText, String.toList_ofList]
  induction bytes with
  | nil => rfl
  | cons byte rest ih =>
    obtain ⟨first, later⟩ := List.forall_mem_cons.mp small
    have code := toNat_ofNat_of_lt first
    rw [chars, List.map_cons, List.flatMap_cons, Utf8.encode_of_lt (code.symm ▸ first), code,
      UInt8.ofNat_toNat, List.singleton_append]
    exact congrArg (byte :: ·) (ih later)

/-- **Small bytes are the text that their codes spell**, and no other text. -/
theorem chars_eq_iff {bytes : Bytes} {text : String} (small : ∀ byte ∈ bytes, byte.toNat < 128) :
    chars bytes = text.toList ↔ bytes = Bytes.ofText text := by
  constructor
  · intro same
    rw [← ofText_chars small, same, String.ofList_toList]
  · rintro rfl
    rw [← String.toList_ofList (l := chars _), Utf8.ofText_injective (ofText_chars small)]

/-- A text is in plain bytes if it is in plain characters. -/
theorem plain_ofText {text : String} :
    (∀ byte ∈ Bytes.ofText text, Plain byte.toNat) ↔ ∀ char ∈ text.toList, Plain char.toNat := by
  constructor
  · intro plain char member
    rw [← (chars_eq_iff fun byte known => (plain byte known).lt).mpr rfl] at member
    obtain ⟨byte, known, rfl⟩ := List.mem_map.mp member
    rw [toNat_ofNat_of_lt (plain byte known).lt]
    exact plain byte known
  · intro plain byte member
    obtain ⟨char, known, single⟩ := List.mem_flatMap.mp member
    have small := (plain char known).lt
    rw [Utf8.encode_of_lt small, List.mem_singleton] at single
    rw [single, UInt8.toNat_ofNat_of_lt' (Nat.lt_trans small (by decide))]
    exact plain char known

/-! ### Reading -/

section

variable {headers : List Header} {header : Header} {bytes : Bytes} {text : String}

/-- **The value carries a token** if the scheme and the token are its two parts. -/
theorem carries_iff :
    Carries bytes text ↔
      bytes.all isPlain ∧
        Text.splitAll ' ' (chars bytes) = [scheme.toList, text.toList] ∧ text.toList ≠ [] := by
  have blank : scheme.toList ++ ' ' :: text.toList = ("Bearer " ++ text).toList := by
    rw [String.toList_append]
    rfl
  have plain : bytes.all isPlain ↔ ∀ byte ∈ bytes, Plain byte.toNat := by
    simp only [List.all_eq_true, isPlain_iff]
  rw [Text.splitAll_eq_pair, blank, plain, ne_eq, String.toList_eq_nil_iff]
  constructor
  · rintro ⟨plain, spelled, filled, whole⟩
    have small : ∀ byte ∈ bytes, byte.toNat < 128 := fun byte known => (plain byte known).lt
    exact ⟨plain, ⟨(chars_eq_iff small).mpr spelled, by decide, whole⟩, filled⟩
  · rintro ⟨plain, ⟨spelled, -, whole⟩, filled⟩
    have small : ∀ byte ∈ bytes, byte.toNat < 128 := fun byte known => (plain byte known).lt
    exact ⟨plain, (chars_eq_iff small).mp spelled, filled, whole⟩

theorem isAuthorization_iff : isAuthorization header ↔ header.1.toLower = "authorization" :=
  beq_iff_eq

theorem find?_eq_some : headers.find? isAuthorization = some header ↔ IsFirst headers header := by
  simp only [List.find?_eq_some_iff_append, Bool.not_eq_true', ← Bool.not_eq_true,
    isAuthorization_iff]
  rfl

theorem IsFirst.unique {other : Header} (first : IsFirst headers header)
    (again : IsFirst headers other) : header = other :=
  Option.some.inj ((find?_eq_some.mpr first).symm.trans (find?_eq_some.mpr again))

theorem find?_eq_none : headers.find? isAuthorization = none ↔
    ∀ header ∈ headers, header.1.toLower ≠ "authorization" := by
  simp only [List.find?_eq_none, isAuthorization_iff, ne_eq]

theorem token_of_none (none : ∀ header ∈ headers, header.1.toLower ≠ "authorization") :
    token headers = .error .missingAuthHeader := by
  rw [token, find?_eq_none.mpr none]

/-- A token is read off the first header of the name. -/
theorem token_of_carries (first : IsFirst headers header) (carries : Carries header.2 text) :
    token headers = .ok text := by
  obtain ⟨plain, parts, filled⟩ := carries_iff.mp carries
  unfold chars at parts
  rw [token, find?_eq_some.mpr first]
  dsimp only
  rw [if_pos plain, parts]
  dsimp only
  rw [if_pos ⟨rfl, filled⟩, String.ofList_toList]

/-- The first header of the name is refused if it carries none. -/
theorem token_of_not_carries (first : IsFirst headers header)
    (without : ∀ text, ¬ Carries header.2 text) : token headers = .error .invalidAuthHeader := by
  rw [token, find?_eq_some.mpr first]
  dsimp only
  split
  · rename_i plain
    split
    · rename_i named written parts
      refine if_neg ?_
      rintro ⟨same, filled⟩
      refine without (String.ofList written) ?_
      rw [carries_iff, String.toList_ofList, ← same]
      exact ⟨plain, parts, filled⟩
    · rfl
  · rfl

/-- **The reader gives what the grammar says** of the headers, and nothing else. -/
theorem token_eq_iff {result : Except Refusal String} :
    token headers = result ↔ Reads headers result := by
  constructor
  · rintro rfl
    cases found : headers.find? isAuthorization with
    | none =>
      have none := find?_eq_none.mp found
      rw [token_of_none none]
      exact none
    | some header =>
      have first := find?_eq_some.mp found
      by_cases carried : ∃ text, Carries header.2 text
      · obtain ⟨text, carries⟩ := carried
        rw [token_of_carries first carries]
        exact ⟨header, first, carries⟩
      · have without := not_exists.mp carried
        rw [token_of_not_carries first without]
        exact ⟨header, first, without⟩
  · intro reads
    unfold Reads at reads
    split at reads
    · obtain ⟨header, first, carries⟩ := reads
      exact token_of_carries first carries
    · exact token_of_none reads
    · obtain ⟨header, first, without⟩ := reads
      exact token_of_not_carries first without
    · exact reads.elim

theorem token_eq_error {refusal : Refusal} (refused : token headers = .error refusal) :
    refusal = .missingAuthHeader ∨ refusal = .invalidAuthHeader := by
  have reads := token_eq_iff.mp refused
  unfold Reads at reads
  split at reads <;> rename_i same
  · cases same
  · exact .inl (Except.error.inj same)
  · exact .inr (Except.error.inj same)
  · exact reads.elim

end

/-! ### Writing -/

section

variable {text name : String}

/-- What is written for a token carries it if it can be carried. -/
theorem carries_value : Carries (Bytes.ofText (value text)) text ↔ Sendable text := by
  have written : (value text).toList = "Bearer ".toList ++ text.toList := String.toList_append
  constructor
  · rintro ⟨plain, -, filled, whole⟩
    rw [plain_ofText, written] at plain
    exact ⟨fun char member => plain char (List.mem_append_right _ member), filled, whole⟩
  · rintro ⟨plain, filled, whole⟩
    have scheme : ∀ code ∈ "Bearer ".toList.map Char.toNat, Plain code := by decide
    refine ⟨plain_ofText.mpr ?_, rfl, filled, whole⟩
    rw [written]
    exact List.forall_mem_append.mpr ⟨List.forall_mem_map.mp scheme, plain⟩

/-- **A token is read back from what was written for it** if it can be carried. -/
theorem token_value (named : name.toLower = "authorization") (others : List Header) :
    token ((name, Bytes.ofText (value text)) :: others) = .ok text ↔ Sendable text := by
  have first : IsFirst ((name, Bytes.ofText (value text)) :: others)
      (name, Bytes.ofText (value text)) :=
    ⟨named, [], others, rfl, fun _ member => absurd member List.not_mem_nil⟩
  rw [← carries_value]
  constructor
  · intro read
    obtain ⟨header, again, carries⟩ := token_eq_iff.mp read
    rwa [← first.unique again] at carries
  · exact token_of_carries first

/-- **Random identifiers can be carried.** -/
theorem IsIdentifier.sendable (identifier : IsIdentifier text) : Sendable text := by
  obtain ⟨groups, spelled, sizes, digits⟩ := identifier
  have safe : ∀ code ∈ ('-' :: Hex.alphabet).map Char.toNat, Plain code ∧ code ≠ 32 := by decide
  have all : ∀ char ∈ text.toList, Plain char.toNat ∧ char.toNat ≠ 32 := by
    intro char member
    rw [spelled] at member
    refine List.forall_mem_map.mp safe char ?_
    rcases Text.mem_joinAll member with rfl | ⟨group, known, there⟩
    · exact List.mem_cons_self
    · exact List.mem_cons_of_mem _ (digits group known there)
  refine ⟨fun char member => (all char member).1, ?_, fun blank => (all _ blank).2 rfl⟩
  rintro rfl
  match groups with
  | [] | [_] => simp at sizes
  | first :: second :: rest => simp [Text.joinAll] at spelled

end

/-- **The reader of tokens accepts its grammar and nothing else.** The first header of the name
decides. It gives a token if its value is in plain bytes and is the scheme, one blank and the token;
without such a header there is one refusal, and for every other value another. So what is written
for a token is read back for exactly the tokens that can be carried, and every token that a session
begins with is one of them, where tokens are random identifiers. -/
theorem token_grammar (headers : List Header) :
    (∀ text, token headers = .ok text ↔
      ∃ header, IsFirst headers header ∧ Carries header.2 text) ∧
    (token headers = .error .missingAuthHeader ↔
      ∀ header ∈ headers, header.1.toLower ≠ "authorization") ∧
    (token headers = .error .invalidAuthHeader ↔
      ∃ header, IsFirst headers header ∧ ∀ text, ¬ Carries header.2 text) ∧
    (∀ refusal, token headers = .error refusal →
      refusal = .missingAuthHeader ∨ refusal = .invalidAuthHeader) ∧
    (∀ name text, name.toLower = "authorization" →
      (token ((name, Bytes.ofText (value text)) :: headers) = .ok text ↔ Sendable text)) ∧
    ∀ (mint : Mint) (service : Service), IsIdentifier (mint service.issued) →
      ∃ session after, (Service.createSession mint).outcome service = (.ok session, after) ∧
        token (("Authorization", Bytes.ofText (value session.token)) :: headers) =
          .ok session.token := by
  refine ⟨fun _ => token_eq_iff, token_eq_iff, token_eq_iff, fun _ => token_eq_error,
    fun _ _ named => token_value named headers, fun mint service identifier => ?_⟩
  exact ⟨_, _, Service.outcome_createSession mint service,
    (token_value (by decide +kernel) headers).mpr identifier.sendable⟩

/-- The headers of a token are read whatever the case of their name, and the header behind does not
count; the token that the first session begins with is an identifier. -/
theorem token_grammar_firstSession :
    "aUTHORIZATION".toLower = "authorization" ∧ IsIdentifier (Mint.numbered 0) ∧
      token [("aUTHORIZATION", Bytes.ofText (value "a=b")), ("Authorization", [])] = .ok "a=b" ∧
      ∃ session after, (Service.createSession Mint.numbered).outcome {} = (.ok session, after) ∧
        token [("Authorization", Bytes.ofText (value session.token)), ("Authorization", [])] =
          .ok session.token := by
  have named : "aUTHORIZATION".toLower = "authorization" := by decide +kernel
  have identifier : IsIdentifier (Mint.numbered 0) :=
    ⟨[List.replicate 8 '0', List.replicate 4 '0', "4000".toList, "8000".toList,
      List.replicate 12 '0'], by decide +kernel, by decide, by decide⟩
  have plain : ∀ code ∈ "a=b".toList.map Char.toNat, Plain code := by decide
  have sendable : Sendable "a=b" := ⟨List.forall_mem_map.mp plain, by decide, by decide⟩
  obtain ⟨-, -, -, -, written, issued⟩ := token_grammar [("Authorization", [])]
  exact ⟨named, identifier, (written _ _ named).mpr sendable, issued _ _ identifier⟩

end StakingDirectory.Bearer
