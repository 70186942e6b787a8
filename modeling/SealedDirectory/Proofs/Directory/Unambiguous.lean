import SealedDirectory.Proofs.Directory.Evolution

/-!
# Rows that cannot be mistaken for each other

Every statement that adds a row or writes over one checks the columns that must be unique.
So no two rows of a table ever agree in them: neither two organizations in their names, nor
two members of one organization in the digests of their addresses or public keys.
-/

namespace SealedDirectory

/-- It does not matter which of two cells is compared with the other. -/
theorem Cell.clashes_comm
    {α : Type}
    [DecidableEq α]
    (left right : Cell α) :
    left.clashes right = right.clashes left := by
  rw [Cell.clashes, Cell.clashes, decide_eq_decide]
  constructor <;> rintro ⟨rfl, something⟩ <;> exact ⟨rfl, something⟩

theorem OrgRow.clash_comm
    {unique : Unique OrgRow}
    (rule : unique ∈ OrgRow.uniques)
    (row other : OrgRow) :
    unique.clash row other = unique.clash other row := by
  simp only [OrgRow.uniques, List.mem_cons, List.not_mem_nil, or_false] at rule
  rcases rule with rfl | rfl | rfl | rfl
  · exact Cell.clashes_comm _ _
  · exact Cell.clashes_comm _ _
  · exact decide_eq_decide.mpr eq_comm
  · exact Cell.clashes_comm _ _

theorem UserRow.clash_comm
    {unique : Unique UserRow}
    (rule : unique ∈ UserRow.uniques)
    (row other : UserRow) :
    unique.clash row other = unique.clash other row := by
  simp only [UserRow.uniques, List.mem_cons, List.not_mem_nil, or_false] at rule
  rcases rule with rfl | rfl | rfl | rfl | rfl
  · exact congrArg₂ and (Cell.clashes_comm _ _) (decide_eq_decide.mpr eq_comm)
  · exact congrArg₂ and (Cell.clashes_comm _ _) (decide_eq_decide.mpr eq_comm)
  · exact Cell.clashes_comm _ _
  · exact Cell.clashes_comm _ _
  · exact Cell.clashes_comm _ _

theorem RecordKind.clash_comm
    {kind : RecordKind}
    {unique : Unique kind.Row}
    (rule : unique ∈ kind.view.uniques)
    (row other : kind.Row) :
    unique.clash row other = unique.clash other row := by
  cases kind with
  | org => exact OrgRow.clash_comm rule row other
  | user => exact UserRow.clash_comm rule row other

namespace Tables

variable {before after : Tables}

/-- No two rows of a table agree in columns that must be unique. -/
def Unambiguous (tables : Tables) : Prop :=
  ∀ kind : RecordKind, ∀ unique ∈ kind.view.uniques,
    (tables.rows kind).Pairwise fun row other => unique.clash row other = false

namespace Unambiguous

theorem empty : Tables.empty.Unambiguous := by
  intro kind unique rule
  cases kind <;> exact .nil

theorem rests
    (unambiguous : before.Unambiguous)
    (idle : Rests before after) :
    after.Unambiguous := by
  intro kind
  rw [idle.rows_eq]
  exact unambiguous kind

theorem inserted
    {sight : Sight}
    {row : sight.kind.Row}
    (unambiguous : before.Unambiguous)
    (inserted : Inserted sight row before after) :
    after.Unambiguous := by
  intro kind unique rule
  by_cases sameKind : kind = sight.kind
  · subst sameKind
    rw [inserted.rows_eq, List.pairwise_append]
    refine ⟨unambiguous _ unique rule, List.pairwise_singleton _ _, ?_⟩
    intro other member new isNew
    rw [List.mem_singleton.mp isNew, RecordKind.clash_comm rule]
    exact inserted.apart unique rule other member
  · rw [inserted.rows_of_ne sameKind]
    exact unambiguous kind unique rule

theorem replaced
    {sight : Sight}
    {signature : Signature}
    {entries : List Entry}
    {old new : sight.kind.Row}
    (unambiguous : before.Unambiguous)
    (replaced : Replaced sight signature entries old new before after) :
    after.Unambiguous := by
  intro kind unique rule
  by_cases sameKind : kind = sight.kind
  · subst sameKind
    have comm {row other : sight.kind.Row} (apart : unique.clash row other = false) :
        unique.clash other row = false :=
      (RecordKind.clash_comm rule other row).trans apart
    have earlierRows := unambiguous sight.kind unique rule
    rcases replaced.rows_eq with ⟨earlier, later, placedOld, placedNew, apart⟩
    rw [placedOld, List.pairwise_middle comm, List.pairwise_cons] at earlierRows
    rw [placedNew, List.pairwise_middle comm, List.pairwise_cons]
    exact ⟨apart unique rule, earlierRows.2⟩
  · rw [replaced.rows_of_ne sameKind]
    exact unambiguous kind unique rule

theorem evolves
    {deeds : List Deed}
    (unambiguous : before.Unambiguous)
    (evolves : Evolves before deeds after) :
    after.Unambiguous := by
  induction evolves with
  | done => exact unambiguous
  | rests idle next ih => exact ih (unambiguous.rests idle)
  | undergoes does next ih =>
      cases does with
      | inserted inserted => exact ih (unambiguous.inserted inserted)
      | changed replaced => exact ih (unambiguous.replaced replaced)

variable {tables : Tables}

/-- A row that clashes with no more rows than a stored one can take its place. -/
theorem apart_alike
    (unambiguous : tables.Unambiguous)
    (kind : RecordKind)
    {earlier later : List kind.Row}
    {old new : kind.Row}
    (placed : tables.rows kind = earlier ++ old :: later)
    (alike : ∀ unique ∈ kind.view.uniques, ∀ other ∈ tables.rows kind,
      unique.clash old other = false → unique.clash new other = false) :
    Apart kind.view.uniques new (earlier ++ later) := by
  intro unique rule other member
  have comm {row other : kind.Row} (apart : unique.clash row other = false) :
      unique.clash other row = false :=
    (RecordKind.clash_comm rule other row).trans apart
  have rows := unambiguous kind unique rule
  rw [placed, List.pairwise_middle comm, List.pairwise_cons] at rows
  apply alike unique rule other _ (rows.1 other member)
  rw [placed]
  exact List.perm_middle.mem_iff.mpr (List.mem_cons_of_mem _ member)

theorem nodup_names (unambiguous : tables.Unambiguous) :
    (tables.orgs.map OrgRow.name).Nodup := by
  have apart := unambiguous .org _ (List.mem_of_getElem? (i := 2) rfl)
  exact List.pairwise_map.mpr (apart.imp fun differ => of_decide_eq_false differ)

/-- Two users of one organization have different public keys. -/
theorem nodup_publicKeys
    (unambiguous : tables.Unambiguous)
    (sound : tables.Sound) :
    (tables.users.map fun row => (row.org, row.publicKeyDigest)).Nodup := by
  have apart := unambiguous .user _ (List.mem_of_getElem? (i := 0) rfl)
  refine List.pairwise_map.mpr (List.Pairwise.imp_of_mem ?_ apart)
  intro row other member _ differ same
  rcases sound.written .user row member with ⟨user, texts, rfl⟩
  rw [Prod.mk.injEq] at same
  simp [← same.1, ← same.2, UserRow.ofUser] at differ

/-- Two users of one organization have different addresses. -/
theorem nodup_emails
    (unambiguous : tables.Unambiguous)
    (sound : tables.Sound) :
    (tables.users.map fun row => (row.org, row.emailDigest)).Nodup := by
  have apart := unambiguous .user _ (List.mem_of_getElem? (i := 1) rfl)
  refine List.pairwise_map.mpr (List.Pairwise.imp_of_mem ?_ apart)
  intro row other member _ differ same
  rcases sound.written .user row member with ⟨user, texts, rfl⟩
  rw [Prod.mk.injEq] at same
  simp [← same.1, ← same.2, UserRow.ofUser] at differ

end Unambiguous

end Tables

end SealedDirectory
