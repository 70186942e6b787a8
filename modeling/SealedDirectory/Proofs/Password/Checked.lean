import SealedDirectory.Directory.Users
import SealedDirectory.Proofs.Password.Printed
import SealedDirectory.Proofs.Work.Outcome

/-!
# Passwords are checked under what their texts state

A new password is encoded under the costs in force and a fresh salt.  Its text states both,
and a guess is checked under what the text states.  So the password itself is accepted
whatever costs are in force by then, and a guess is accepted exactly if it has the tag that
the text holds.

Of the function that gives the tags only the length of what it gives is used.  Whether two
passwords can have one tag is not decided here.
-/

namespace SealedDirectory

/-! ## Lengths of tags -/

namespace Blake2b

theorem size_compress
    (state : Array UInt64)
    (block : Bytes)
    (taken : Nat)
    (last : Bool) :
    (compress state block taken last).size = 8 := by
  simp [compress]

theorem size_absorb
    (state : Array UInt64)
    (message : Bytes)
    (taken : Nat) :
    (absorb state message taken).size = 8 := by
  induction state, message, taken using absorb.induct with
  | case1 state message taken short =>
      rw [absorb, if_pos short, size_compress]
  | case2 state message taken long ih =>
      rw [absorb, if_neg long, ih]

/-- A digest has the length that is asked for. -/
theorem length_digest
    {length : Nat}
    (message : Bytes)
    (short : length ≤ 64) :
    (digest length message).length = length := by
  simp [digest, size_absorb, short]

end Blake2b

theorem Argon2.length_tag
    {inputs : Inputs}
    (password : Bytes)
    (short : inputs.tagLength ≤ 64) :
    (tag inputs password).length = inputs.tagLength := by
  rw [tag, longHash, if_pos short, Blake2b.length_digest _ short]

namespace Password

open Argon2 Encoded

/-! ## What is written -/

/-- The inputs under which a new password gets its tag. -/
def freshInputs (costs : Costs) (salt : Bytes) : Inputs :=
  { variant := .hybrid, version := .second, costs, salt, associated := [], tagLength }

theorem areParameters_parametersOf (costs : Costs) :
    AreParameters (parametersOf costs) where
  filled := by simp [parametersOf]
  names := by
    have single : ∀ char ∈ ['m', 't', 'p'], IsName [char] := by
      have proper : ['m', 't', 'p'].all isNameChar = true := by decide
      intro char member
      exact ⟨by simp, by simp, by simpa using List.all_eq_true.mp proper char member⟩
    intro entry member
    simp only [parametersOf, List.mem_cons, List.not_mem_nil, or_false] at member
    rcases member with rfl | rfl | rfl <;> exact single _ (by simp)
  values := by
    intro entry member
    simp only [parametersOf, List.mem_cons, List.not_mem_nil, or_false] at member
    rcases member with rfl | rfl | rfl <;> exact isValue_decimal (UInt32.toNat_lt _)
  short := by
    have short (word : UInt32) : (decimal word.toNat).length ≤ 10 :=
      length_decimal_le word.toNat_lt
    have memory := short costs.memory
    have time := short costs.time
    have lanes := short costs.lanes
    simp only [parametersOf, parameterChars, List.map_cons, List.map_nil, Text.intercalate_cons,
      List.flatMap_cons, List.flatMap_nil, List.length_append, List.length_cons,
      List.length_nil]
    omega

/-- An encoded password states inputs and holds a tag. -/
structure Encoded.States (encoded : Encoded) (inputs : Inputs) (held : Bytes) : Prop where
  algorithm : encoded.algorithm = variantName inputs.variant
  version : encoded.version = some inputs.version.code
  parameters : encoded.parameters = parametersOf inputs.costs
  salt : encoded.salt = some (Base64.encodeUnpadded inputs.salt).toList
  tag : encoded.tag = some held
  unassociated : inputs.associated = []
  length : inputs.tagLength = held.length

theorem encode_states
    {tagOf : TagFunction}
    {costs : Costs}
    {salt : Bytes}
    {password : String}
    (sized : (tagOf (freshInputs costs salt) (Bytes.ofText password)).length = tagLength) :
    (encode tagOf costs salt password).States (freshInputs costs salt)
      (tagOf (freshInputs costs salt) (Bytes.ofText password)) :=
  ⟨rfl, rfl, rfl, rfl, rfl, rfl, sized.symm⟩

/-- What states inputs has all its fields. -/
theorem Encoded.States.isComplete
    {encoded : Encoded}
    {inputs : Inputs}
    {held : Bytes}
    (states : encoded.States inputs held)
    (longSalt : 2 < inputs.salt.length)
    (shortSalt : inputs.salt.length ≤ 48)
    (longTag : leastTag ≤ held.length)
    (shortTag : held.length ≤ greatestTag) :
    encoded.IsComplete inputs.version.code inputs.salt held where
  algorithm := by
    rw [states.algorithm]
    cases inputs.variant <;> exact ⟨by decide, by decide, List.all_eq_true.mp (by decide)⟩
  version := ⟨states.version, by cases inputs.version <;> decide⟩
  parameters := by
    rw [states.parameters]
    exact areParameters_parametersOf inputs.costs
  salt := ⟨by rw [states.salt, Base64.toList_encodeUnpadded], longSalt, shortSalt⟩
  tag := ⟨states.tag, longTag, shortTag⟩

/-! ## What is read -/

theorem word?_decimal (word : UInt32) :
    word? (decimal word.toNat) = some word := by
  rw [word?, readDecimal_decimal word.toNat_lt]
  simp

/-- The parameters that are written state all costs, so none is left to those in force. -/
theorem stated?_parametersOf
    (usual costs : Costs) :
    stated? usual (parametersOf costs) = some { costs, associated := [] } := by
  simp [stated?, parametersOf, Stated.take?, word?_decimal]

theorem variant?_variantName (variant : Variant) :
    variant? (variantName variant) = some variant := by
  cases variant <;> rfl

theorem version?_code (version : Version) :
    version? (some version.code) = some version := by
  cases version <;> rfl

namespace Encoded.States

variable {encoded : Encoded} {inputs : Inputs} {held : Bytes}

/-- The inputs that are stated are found, whatever costs are in force. -/
theorem inputs?_eq
    (states : encoded.States inputs held)
    (usual : Costs)
    (accepted : inputs.costs.fault? = none)
    (long : 8 ≤ inputs.salt.length) :
    inputs? usual encoded = some (inputs, held) := by
  have salt : salt? (Base64.encodeUnpadded inputs.salt).toList = some inputs.salt := by
    rw [salt?, String.ofList_toList, Base64.decodeUnpadded?_encodeUnpadded]
    simp [long]
  have same : inputs = ⟨inputs.variant, inputs.version, inputs.costs, inputs.salt, [],
      held.length⟩ := by
    rw [← states.unassociated, ← states.length]
  simp only [inputs?, states.salt, states.tag, states.parameters, stated?_parametersOf,
    accepted, states.algorithm, variant?_variantName, states.version, version?_code, salt,
    Option.bind_eq_bind, Option.bind_some]
  exact congrArg (fun found => some (found, held)) same.symm

/-- A guess is matched exactly if it has the tag that is held. -/
theorem matched_eq
    (states : encoded.States inputs held)
    (tagOf : TagFunction)
    (usual : Costs)
    (accepted : inputs.costs.fault? = none)
    (long : 8 ≤ inputs.salt.length)
    (guess : String) :
    matched tagOf usual encoded guess = decide (tagOf inputs (Bytes.ofText guess) = held) := by
  rw [matched, states.inputs?_eq usual accepted long]

end Encoded.States

end Password

namespace Directory

open Password

variable {tagOf : TagFunction} {costs : Argon2.Costs} {salt : Bytes} {password text : String}

/-- Passwords are encoded unless they are empty or the costs are refused. -/
theorem encodePasswordBy_eq_ok :
    encodePasswordBy tagOf costs salt password = .ok text ↔
      password.isEmpty = false ∧ costs.fault? = none ∧
        text = (encode tagOf costs salt password).text := by
  rw [encodePasswordBy]
  cases password.isEmpty <;> cases costs.fault? <;> simp [eq_comm]

/-- What is written for a new password is read back. -/
theorem parse_encodePasswordBy
    (sized : (tagOf (freshInputs costs salt) (Bytes.ofText password)).length = tagLength)
    (drawn : 8 ≤ salt.length ∧ salt.length ≤ 48)
    (encodes : encodePasswordBy tagOf costs salt password = .ok text) :
    Encoded.parse text = .ok (encode tagOf costs salt password) := by
  obtain ⟨-, -, rfl⟩ := encodePasswordBy_eq_ok.mp encodes
  have states := encode_states sized
  have held : leastTag ≤ tagLength ∧ tagLength ≤ greatestTag := by decide
  rw [← sized] at held
  exact (states.isComplete (Nat.le_trans (by decide) drawn.1) drawn.2 held.1 held.2).parse_text

/-- A guess is accepted exactly if it has the tag of the password under the same inputs. -/
theorem checkPasswordBy_eq
    (usual : Argon2.Costs)
    (sized : (tagOf (freshInputs costs salt) (Bytes.ofText password)).length = tagLength)
    (drawn : 8 ≤ salt.length ∧ salt.length ≤ 48)
    (encodes : encodePasswordBy tagOf costs salt password = .ok text)
    (guess : String) :
    checkPasswordBy tagOf usual text guess =
      .ok (decide (tagOf (freshInputs costs salt) (Bytes.ofText guess) =
        tagOf (freshInputs costs salt) (Bytes.ofText password))) := by
  have accepted := (encodePasswordBy_eq_ok.mp encodes).2.1
  rw [checkPasswordBy, parse_encodePasswordBy sized drawn encodes]
  exact congrArg Except.ok
    ((encode_states sized).matched_eq tagOf usual accepted drawn.1 guess)

/-- The guesses of a user whose stored text was made for a password under any costs. -/
theorem verifyPassword_gives
    {ring : KeyRing}
    {id : UserId}
    {user : User}
    {before after : Session}
    (drawn : 8 ≤ salt.length ∧ salt.length ≤ 48)
    (encodes : encodePassword costs salt password = .ok user.password)
    (found : (requireUser ring id).Gives before user after)
    (guess : String) :
    (verifyPassword ring id guess).Gives before
      (decide (Argon2.tag (freshInputs costs salt) (Bytes.ofText guess) =
        Argon2.tag (freshInputs costs salt) (Bytes.ofText password))) after := by
  have sized : (Argon2.tag (freshInputs costs salt) (Bytes.ofText password)).length =
      tagLength :=
    Argon2.length_tag _ (show tagLength ≤ 64 by decide)
  have checked := checkPasswordBy_eq usualCosts sized drawn encodes guess
  refine Work.gives_bind.mpr ⟨user, after, found, ?_⟩
  rw [checkPassword, checked]
  exact Work.gives_pure.mpr ⟨rfl, rfl⟩

end Directory

/-! ## The main statement -/

/--
The text of a new password states the inputs of its tag and holds the tag, and guesses are
checked under these, whatever costs are in force by then.  The password itself is accepted;
a guess is accepted exactly if it has the tag that is held, and is refused otherwise.
-/
theorem passwords_are_checked_under_what_their_texts_state
    (tagOf : Password.TagFunction)
    (usual : Argon2.Costs)
    {costs : Argon2.Costs}
    {salt : Bytes}
    {password text : String}
    (sized : ∀ inputs guess, inputs.tagLength = Password.tagLength →
      (tagOf inputs guess).length = Password.tagLength)
    (drawn : 8 ≤ salt.length ∧ salt.length ≤ 48)
    (encodes : Directory.encodePasswordBy tagOf costs salt password = .ok text) :
    Directory.checkPasswordBy tagOf usual text password = .ok true ∧
    ∃ encoded held, Password.Encoded.parse text = .ok encoded ∧
      encoded.States (Password.freshInputs costs salt) held ∧
      ∀ guess, Directory.checkPasswordBy tagOf usual text guess =
        .ok (decide (tagOf (Password.freshInputs costs salt) (Bytes.ofText guess) = held)) := by
  have held := sized (Password.freshInputs costs salt) (Bytes.ofText password) rfl
  have checked := Directory.checkPasswordBy_eq usual held drawn encodes
  refine ⟨?_, _, _, Directory.parse_encodePasswordBy held drawn encodes,
    Password.encode_states held, checked⟩
  rw [checked, decide_eq_true rfl]

/-- A password that was encoded under the least costs is accepted under the usual ones. -/
theorem password_under_least_costs_is_accepted :
    ∃ (salt : Bytes) (text : String),
      let least : Argon2.Costs := { memory := 8, time := 1, lanes := 1 }
      (8 ≤ salt.length ∧ salt.length ≤ 48) ∧
      (∀ inputs guess, inputs.tagLength = Password.tagLength →
        (Argon2.tag inputs guess).length = Password.tagLength) ∧
      Directory.encodePassword least salt "hunter2" = .ok text ∧
      Directory.checkPassword text "hunter2" = .ok true := by
  have sized : ∀ inputs guess, inputs.tagLength = Password.tagLength →
      (Argon2.tag inputs guess).length = Password.tagLength := by
    intro inputs guess asked
    have short : inputs.tagLength ≤ 64 := by
      rw [asked]
      decide
    rw [Argon2.length_tag guess short, asked]
  have encodes : Directory.encodePassword { memory := 8, time := 1, lanes := 1 }
      (List.replicate 16 7) "hunter2" = .ok _ :=
    Directory.encodePasswordBy_eq_ok.mpr ⟨by decide, by decide, rfl⟩
  exact ⟨_, _, by simp, sized, encodes,
    (passwords_are_checked_under_what_their_texts_state Argon2.tag Password.usualCosts sized
      (by simp) encodes).1⟩

end SealedDirectory
