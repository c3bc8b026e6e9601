import PackModels.Proofs.Direct.Chain
import PackModels.Proofs.Tags

/-!
Contract: reading the models of a pack gives each readable file an instance of
its own.

Files are read in order under tags that count up from one. So what is held for
an id is what its own file says, no two ids share an instance, and none holds
the instance of tag zero.
-/

namespace PackModels.ReadModels

/-- What holds of the models read from some files. -/
structure Reads (done : List (ResourceId × String)) (models : Table ResourceId (Shared ModelDef)) :
    Prop where
  values : ∀ entry ∈ done,
    (models[entry.1]?).map Shared.value = (ModelDef.parse entry.1 entry.2).toOption
  others : ∀ id, id ∉ done.map Prod.fst → models[id]? = none
  tagged : Tagged Shared.tag (fun id : ResourceId => models[id]?) done.length

theorem reads_nil : Reads [] ∅ where
  values := by
    intro entry member
    cases member
  others := by
    intro id _
    simp
  tagged := by
    apply Tagged.of_nothing
    intro id
    simp

variable {done : List (ResourceId × String)} {read : ReadModels × List Warning}

/-- One more file, under the tag after the last one. -/
theorem Reads.add (reads : Reads done read.1.models) {entry : ResourceId × String}
    (fresh : entry.1 ∉ done.map Prod.fst) :
    Reads (done ++ [entry]) (ReadModels.add read (entry, 1 + done.length)).1.models := by
  have absent := reads.others entry.1 fresh
  have apart : ∀ other ∈ done, other.1 ≠ entry.1 := by
    intro other member same
    exact fresh (same ▸ List.mem_map_of_mem member)
  have length : (done ++ [entry]).length = 1 + done.length := by
    rw [List.length_append, List.length_singleton, Nat.add_comm]
  unfold ReadModels.add
  cases parsed : ModelDef.parse entry.1 entry.2 with
  | error error =>
      refine ⟨?_, ?_, ?_⟩
      · intro other member
        rcases List.mem_append.mp member with before | last
        · exact reads.values other before
        · rw [List.mem_singleton.mp last, parsed]
          change (read.1.models[entry.1]?).map Shared.value = none
          rw [absent, Option.map_none]
      · intro id outside
        rw [List.map_append, List.mem_append, not_or] at outside
        exact reads.others id outside.1
      · rw [length]
        exact reads.tagged.mono (Nat.le_add_left _ _)
  | ok definition =>
      dsimp only
      refine ⟨?_, ?_, ?_⟩
      · intro other member
        rcases List.mem_append.mp member with before | last
        · rw [Table.getElem?_insert_of_ne (apart other before)]
          exact reads.values other before
        · rw [List.mem_singleton.mp last, Std.ExtTreeMap.getElem?_insert_self, parsed]
          rfl
      · intro id outside
        rw [List.map_append, List.mem_append, not_or] at outside
        have different : id ≠ entry.1 := by
          intro same
          exact outside.2 (by simp [same])
        rw [Table.getElem?_insert_of_ne different]
        exact reads.others id outside.1
      · rw [length]
        have above : done.length < (⟨1 + done.length, definition⟩ : Shared ModelDef).tag := by
          change done.length < 1 + done.length
          omega
        apply reads.tagged.insert above
        · exact Std.ExtTreeMap.getElem?_insert_self
        · intro other different
          exact Table.getElem?_insert_of_ne different

theorem Reads.foldl (reads : Reads done read.1.models) (entries : List (ResourceId × String))
    (distinct : ((done ++ entries).map Prod.fst).Nodup) :
    Reads (done ++ entries)
      ((entries.zipIdx (1 + done.length)).foldl ReadModels.add read).1.models := by
  induction entries generalizing done read with
  | nil =>
      rw [List.append_nil]
      exact reads
  | cons entry rest inductionHypothesis =>
      have regroup : done ++ entry :: rest = (done ++ [entry]) ++ rest := by simp
      have fresh := Table.not_mem_of_nodup distinct
      rw [regroup] at distinct ⊢
      have next := inductionHypothesis (reads.add fresh) distinct
      rw [List.length_append, List.length_singleton] at next
      exact next

theorem reads_ofEntries {entries : List (ResourceId × String)}
    (distinct : (entries.map Prod.fst).Nodup) : Reads entries (ofEntries entries).1.models := by
  have nothing : Reads [] ((empty, []) : ReadModels × List Warning).1.models := reads_nil
  exact nothing.foldl entries distinct

variable {texts : Table ResourceId String} {entries : List (ResourceId × String)}

/-- The files may be read in any order. -/
theorem reads_of_perm (permutation : entries.Perm texts.toList) :
    Reads entries (ofEntries entries).1.models :=
  reads_ofEntries ((permutation.map Prod.fst).nodup_iff.mpr texts.nodup_toList)

/-- The models that are read are the definitions of the files, in whatever order
these are read. -/
theorem map_value_ofEntries (permutation : entries.Perm texts.toList) (id : ResourceId) :
    ((ofEntries entries).1.models[id]?).map Shared.value = (Direct.files texts)[id]? := by
  have reads := reads_of_perm permutation
  rw [Direct.files, Std.ExtTreeMap.getElem?_filterMap']
  cases held : texts[id]? with
  | none =>
      have outside := Table.not_mem_toList_of_getElem? held
      rw [← (permutation.map Prod.fst).mem_iff] at outside
      rw [reads.others id outside, Option.map_none, Option.bind_none]
  | some text =>
      have member := Std.ExtTreeMap.mem_toList_iff_getElem?_eq_some.mpr held
      rw [reads.values (id, text) (permutation.mem_iff.mpr member), Option.bind_some]

/-! ## Files that cannot be read -/

/-- The complaint about a file that cannot be read. -/
def complaint? (entry : ResourceId × String) : Option Warning :=
  match ModelDef.parse entry.1 entry.2 with
  | .ok _ => none
  | .error error => some (.modelUnreadable error)

theorem add_complains (read : ReadModels × List Warning) (entry : (ResourceId × String) × Nat) :
    (add read entry).2 = read.2 ++ (complaint? entry.1).toList ∧
      (add read entry).1.failed = read.1.failed + (complaint? entry.1).toList.length := by
  unfold add complaint?
  cases ModelDef.parse entry.1.1 entry.1.2 with
  | ok definition => exact ⟨(List.append_nil _).symm, rfl⟩
  | error error => exact ⟨rfl, rfl⟩

/-- Each file that cannot be read is complained about and counted once. -/
theorem ofEntries_complains (entries : List (ResourceId × String)) :
    (ofEntries entries).2 = entries.filterMap complaint? ∧
      (ofEntries entries).1.failed = (entries.filterMap complaint?).length := by
  suffices run : ∀ (first : Nat) (read : ReadModels × List Warning),
      ((entries.zipIdx first).foldl add read).2 = read.2 ++ entries.filterMap complaint? ∧
        ((entries.zipIdx first).foldl add read).1.failed =
          read.1.failed + (entries.filterMap complaint?).length by
    have all := run 1 (empty, [])
    rw [List.nil_append, show (empty : ReadModels).failed = 0 from rfl, Nat.zero_add] at all
    exact all
  induction entries with
  | nil => exact fun first read => ⟨(List.append_nil _).symm, rfl⟩
  | cons entry rest inductionHypothesis =>
      intro first read
      obtain ⟨warnings, failed⟩ := add_complains read (entry, first)
      obtain ⟨warningsRest, failedRest⟩ :=
        inductionHypothesis (first + 1) (add read (entry, first))
      have split : (entry :: rest).filterMap complaint? =
          (complaint? entry).toList ++ rest.filterMap complaint? := by
        rw [List.filterMap_cons]
        cases complaint? entry <;> rfl
      rw [List.zipIdx_cons, List.foldl_cons, warningsRest, failedRest, warnings, failed, split,
        List.length_append, List.append_assoc, Nat.add_assoc]
      exact ⟨rfl, rfl⟩

end PackModels.ReadModels
