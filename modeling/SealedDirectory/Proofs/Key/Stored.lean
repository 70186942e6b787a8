import SealedDirectory.Key.File
import SealedDirectory.Proofs.Bytes.Written
import SealedDirectory.Proofs.Ident.Canonical
import SealedDirectory.Proofs.Json.Printed
import SealedDirectory.Proofs.Text.Trim

/-!
# Stored keys are read back

A key is read back from its Base64 text, and a key file from the document that it is
stored as, whatever texts it holds in the places of keys.  The second of these needs
that the entries of a map by versions, which ascend, give the map again when they are
put in one after the other.
-/

namespace SealedDirectory

/-! ## Keys -/

namespace Base64

/-- No symbol is blank, and neither is the padding. -/
theorem solid_encodeChars (bytes : Bytes) :
    ∀ char ∈ encodeChars bytes, Text.isBlank char = false := by
  have solid : ∀ value < 64, Text.isBlank (symbol value) = false := by decide
  have padded : Text.isBlank '=' = false := by decide
  induction bytes using encodeChars.induct with
  | case1 => simp [encodeChars]
  | case2 first =>
      rcases numbers_lt first 0 0 with ⟨one, two, -⟩
      simpa [encodeChars, padded] using ⟨solid _ one, solid _ two⟩
  | case3 first second =>
      rcases numbers_lt first second 0 with ⟨one, two, three, -⟩
      simpa [encodeChars, padded] using ⟨solid _ one, solid _ two, solid _ three⟩
  | case4 first second third rest ih =>
      rcases numbers_lt first second third with ⟨one, two, three, four⟩
      simpa [encodeChars] using ⟨solid _ one, solid _ two, solid _ three, solid _ four, ih⟩

theorem trimmed_encode (bytes : Bytes) :
    Text.Trimmed (encode bytes) := by
  apply Text.trimmed_of_solid
  rw [encode, String.toList_ofList]
  exact solid_encodeChars bytes

end Base64

theorem Key.ofBase64_toBase64 (key : Key) :
    ofBase64 key.toBase64 = .ok key := by
  rw [ofBase64, toBase64, Base64.trimmed_encode key.bytes, Base64.decode_encode]
  exact ofBytes_bytes key

/-! ## Maps by versions -/

namespace Versions

variable {α : Type}

/-- An entry with the last version of all is put at the end. -/
theorem insertEntry_last
    {version : KeyVersion}
    {entries : List (KeyVersion × α)}
    (value : α)
    (before : ∀ entry ∈ entries, entry.1 < version) :
    insertEntry version value entries = entries ++ [(version, value)] := by
  induction entries with
  | nil => rfl
  | cons entry entries ih =>
      have earlier := before entry (List.mem_cons_self ..)
      have notBelow : ¬ version < entry.1 :=
        fun below => Id.lt_irrefl _ (Id.lt_trans below earlier)
      have different : version ≠ entry.1 := by
        rintro rfl
        exact Id.lt_irrefl _ earlier
      rw [insertEntry, if_neg notBelow, if_neg different,
        ih fun other member => before other (List.mem_cons_of_mem _ member),
        List.cons_append]

theorem entries_foldl_insert
    (entries : List (KeyVersion × α))
    (held : Versions α)
    (ascending : (held.entries ++ entries).Pairwise fun left right => left.1 < right.1) :
    (entries.foldl (fun held entry => held.insert entry.1 entry.2) held).entries =
      held.entries ++ entries := by
  induction entries generalizing held with
  | nil => exact (List.append_nil _).symm
  | cons entry entries ih =>
      have before : ∀ other ∈ held.entries, other.1 < entry.1 := by
        intro other member
        exact (List.pairwise_append.mp ascending).2.2 other member entry (List.mem_cons_self ..)
      have grown : (held.insert entry.1 entry.2).entries = held.entries ++ [entry] :=
        insertEntry_last entry.2 before
      rw [List.foldl_cons, ih]
      · rw [grown, List.append_assoc, List.singleton_append]
      · rwa [grown, List.append_assoc, List.singleton_append]

/-- The entries of a map give the map again. -/
theorem ofList_entries (versions : Versions α) :
    ofList versions.entries = versions := by
  have same := entries_foldl_insert versions.entries empty versions.ascending
  cases versions
  rw [ofList]
  exact (Versions.mk.injEq ..).mpr same

end Versions

/-- Whatever it names, an identifier is read back from a document. -/
theorem Id.readsBack_codec
    {kind : IdKind}
    (id : Id kind)
    (layout : Json.Layout)
    (depth : Nat) :
    (Id.codec kind).ReadsBack layout depth id := by
  apply Json.Codec.readsBack_textForm
  rw [Id.bare, Uuid.parse_text]

/-! ## Key files -/

namespace KeyFile

theorem readsBack_keysCodec
    (keys : Versions String)
    (depth : Nat) :
    keysCodec.ReadsBack .pretty (depth + 2) keys := by
  apply Json.Codec.readsBack_assoc Json.Layout.loose_pretty
  · intro entry member
    rw [Id.bare, Uuid.parse_text]
  · intro entry member
    exact Json.Codec.readsBack_textForm rfl
  · exact keys.ofList_entries

/-- What a key file is stored as is read back as that key file. -/
theorem parse_text (file : KeyFile) :
    parse file.text = .ok file := by
  have back : codec.ReadsBack .pretty Json.Reader.depthLimit file := by
    apply Json.Codec.readsBack_record Json.Layout.loose_pretty
    · decide
    · exact ⟨Id.readsBack_codec file.current _ _, readsBack_keysCodec file.keys _, trivial⟩
    · rfl
  rw [parse, text, Json.pretty, back.decode]
  rfl

end KeyFile

end SealedDirectory
