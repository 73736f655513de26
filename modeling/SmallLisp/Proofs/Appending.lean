/-
# Writing at the end of a file

When a text can be added to a file, and what an attempt leaves behind. A path can be written to if it
leads to a location where there is a file, or nothing yet and a file may be made, and the file may
be added to (`Disk.Writable`). Then the disk has there what the file held before, nothing if there
was none, and the text behind it. In every other case the text is refused. The disk is then as it
was, but for one case: where a file is missing and may be made but not added to
(`Disk.OnlyMakes`), an empty file is left.

That a file made at a location does not get in the way of a path that leads there is what
`Disk.walk_putFile` says: directories stay directories.

Key definitions: `Disk.WritableAt`, `Disk.Writable`, `Disk.OnlyMakes`, `Disk.bytesAt`.
Key theorems: `Disk.walk_putFile`, `Disk.append_of_writableAt`, `Disk.append_of_onlyMakes`,
`Disk.append_of_not_writable`, `Disk.find_putFile`, `Text.bytes_append`.
-/
import SmallLisp.Proofs.ScriptFaults

namespace SmallLisp
namespace Disk

/-! ### A file put in its place -/

section PutFile

variable {disk : Disk} {location other : List String} {bytes : List UInt8}

theorem lookup_filter_ne (h : other ≠ location) : ∀ entries : List (List String × Entry),
    (entries.filter fun e => e.1 != location).lookup other = entries.lookup other
  | [] => rfl
  | (l, entry) :: entries => by
    have ih := lookup_filter_ne h entries
    by_cases hl : l = location
    · have hne : (other == l) = false := by simpa [hl] using h
      rw [List.filter_cons_of_neg (by simp [hl]), ih, List.lookup_cons, hne]
    · rw [List.filter_cons_of_pos (by simpa using hl), List.lookup_cons, List.lookup_cons, ih]

theorem entryAt?_putFile_self : (disk.putFile location bytes).entryAt? location =
    some (.file bytes) := by
  simp [entryAt?, putFile]

/-- Directories stay directories when a file is put where none of them is. -/
theorem entryAt?_putFile_of_directory (hlocation : disk.entryAt? location ≠ some .directory)
    (h : disk.entryAt? other = some .directory) :
    (disk.putFile location bytes).entryAt? other = some .directory := by
  have hne : other ≠ location := by
    rintro rfl
    exact hlocation h
  have hlookup : (disk.putFile location bytes).entries.lookup other = disk.entries.lookup other := by
    have hbeq : (other == location) = false := by simpa using hne
    rw [putFile, List.lookup_cons, hbeq]
    exact lookup_filter_ne hne disk.entries
  unfold entryAt? at h ⊢
  rw [hlookup]
  cases hentry : disk.entries.lookup other with
  | some entry =>
    rw [hentry] at h
    exact h
  | none =>
    simp only [hentry, Option.ite_none_right_eq_some, and_true] at h ⊢
    rcases h with hwd | hany
    · exact Or.inl hwd
    · right
      obtain ⟨e, he, hbelow⟩ := List.any_eq_true.mp hany
      by_cases hl : e.1 = location
      · exact List.any_eq_true.mpr ⟨_, List.mem_cons_self, hl ▸ hbelow⟩
      · have hkept : e ∈ disk.entries.filter fun e => e.1 != location :=
          List.mem_filter.mpr ⟨he, by simpa using hl⟩
        exact List.any_eq_true.mpr ⟨e, List.mem_cons_of_mem _ hkept, hbelow⟩

/-- A walk only needs directories, and so it leads where it led. -/
theorem walk_putFile (hlocation : disk.entryAt? location ≠ some .directory) {target : List String} :
    ∀ {names : List String} {start : List String}, disk.walk start names = .ok target →
      (disk.putFile location bytes).walk start names = .ok target
  | [], _, h => h
  | name :: names, start, h => by
    rw [walk] at h ⊢
    cases hstart : disk.entryAt? start with
    | none =>
      rw [hstart] at h
      cases h
    | some entry =>
      rw [hstart] at h
      cases entry with
      | file _ => cases h
      | directory =>
        have hrefusals : (disk.putFile location bytes).refusals = disk.refusals := rfl
        rw [entryAt?_putFile_of_directory hlocation hstart, hrefusals]
        simp only at h ⊢
        cases hsearch : disk.refusals.search start name with
        | some e =>
          rw [hsearch] at h
          cases h
        | none =>
          rw [hsearch] at h
          simp only at h ⊢
          by_cases hdots : name = ".."
          · rw [if_pos hdots] at h ⊢
            exact walk_putFile hlocation h
          · rw [if_neg hdots] at h ⊢
            by_cases hlong : 255 < name.utf8ByteSize
            · rw [if_pos hlong] at h
              cases h
            · rw [if_neg hlong] at h ⊢
              exact walk_putFile hlocation h

theorem locate_putFile (hlocation : disk.entryAt? location ≠ some .directory) {p : Path}
    {target : List String} (h : disk.locate p = .ok target) :
    (disk.putFile location bytes).locate p = .ok target := by
  unfold locate at h ⊢
  by_cases hlong : 4096 ≤ p.text.utf8ByteSize
  · rw [if_pos hlong] at h
    cases h
  · rw [if_neg hlong] at h ⊢
    exact walk_putFile hlocation h

/-- Of two files put in one place the later one stays. -/
theorem putFile_putFile (before after : List UInt8) :
    (disk.putFile location before).putFile location after = disk.putFile location after := by
  simp [putFile, List.filter_filter]

end PutFile

/-! ### Files that are written to -/

section Append

variable {disk : Disk} {p : Path} {location : List String} {bytes : List UInt8}

/-- A text can be added at a location. -/
structure WritableAt (disk : Disk) (location : List String) : Prop where
  noDirectory : disk.entryAt? location ≠ some .directory
  makes : disk.entryAt? location = none → disk.refusals.create location = none
  grows : disk.refusals.write location = none

/-- A text can be added at the location that a path leads to. -/
def Writable (disk : Disk) (p : Path) : Prop :=
  ∃ location, disk.locate p = .ok location ∧ disk.WritableAt location

/-- There is nothing at a location, and a file may be made there but not added to. -/
structure OnlyMakes (disk : Disk) (location : List String) : Prop where
  absent : disk.entryAt? location = none
  makes : disk.refusals.create location = none
  refuses : disk.refusals.write location ≠ none

/-- What the file at a path holds, whether it may be read or not. Where there is no file it is
nothing. -/
def bytesAt (disk : Disk) (p : Path) : List UInt8 :=
  match disk.find p with
  | .ok (.file bytes) => bytes
  | _ => []

/-- What is put where a path leads is found there. -/
theorem find_putFile (hlocate : disk.locate p = .ok location)
    (hentry : disk.entryAt? location ≠ some .directory) :
    (disk.putFile location bytes).find p = .ok (.file bytes) := by
  rw [find_of_locate (locate_putFile hentry hlocate), entryAt?_putFile_self]
  rfl

theorem isPresent_of_find (hnul : p.hasNul = false) {entry : Entry} (h : disk.find p = .ok entry) :
    disk.isPresent p = .ok true := by
  rw [isPresent, test, if_neg (by simp [hnul]), h]

theorem isPresent_of_find_error (hnul : p.hasNul = false) {e : SystemError}
    (h : disk.find p = .error e) :
    disk.isPresent p = if e.meansAbsence then .ok false else .error e := by
  rw [isPresent, test, if_neg (by simp [hnul]), h]

theorem ensure_of_present (hnul : p.hasNul = false) (hlocate : disk.locate p = .ok location)
    {entry : Entry} (hentry : disk.entryAt? location = some entry) : disk.ensure p = .ok disk := by
  have hfind : disk.find p = .ok entry := by
    rw [find_of_locate hlocate, hentry]
    rfl
  rw [ensure, isPresent_of_find hnul hfind]
  rfl

theorem ensure_of_absent (hnul : p.hasNul = false) (hlocate : disk.locate p = .ok location)
    (hentry : disk.entryAt? location = none) : disk.ensure p =
      (disk.refusals.create location).elim (.ok (disk.putFile location [])) .error := by
  have hfind : disk.find p = .error .noEntry := by
    rw [find_of_locate hlocate, hentry]
    rfl
  have hcreate : disk.create p =
      (disk.refusals.create location).elim (.ok (disk.putFile location [])) .error := by
    rw [create, hlocate]
    simp only [bind, Except.bind, hentry]
    cases disk.refusals.create location <;> rfl
  rw [ensure, isPresent_of_find_error hnul hfind]
  exact hcreate

theorem ensure_of_locate_error (hnul : p.hasNul = false) {e : SystemError}
    (h : disk.locate p = .error e) : disk.ensure p = .error e := by
  have hcreate : disk.create p = .error e := by
    rw [create, h]
    rfl
  rw [ensure, isPresent_of_find_error hnul (find_of_locate_error h)]
  cases e.meansAbsence with
  | true => exact hcreate
  | false => rfl

theorem extend_of_file (more : List UInt8) (hlocate : disk.locate p = .ok location)
    (hentry : disk.entryAt? location = some (.file bytes)) : disk.extend p more =
      (disk.refusals.write location).elim (.ok (disk.putFile location (bytes ++ more))) .error := by
  rw [extend, hlocate]
  simp only [bind, Except.bind, hentry]
  cases disk.refusals.write location <;> rfl

theorem extend_of_directory (more : List UInt8) (hlocate : disk.locate p = .ok location)
    (hentry : disk.entryAt? location = some .directory) :
    disk.extend p more = .error .isADirectory := by
  rw [extend, hlocate]
  simp only [bind, Except.bind, hentry]

/-- What is written to a file that was made for it. -/
theorem extend_putFile (more : List UInt8) (hlocate : disk.locate p = .ok location)
    (hentry : disk.entryAt? location = none) : (disk.putFile location []).extend p more =
      (disk.refusals.write location).elim (.ok (disk.putFile location more)) .error := by
  have hnodirectory : disk.entryAt? location ≠ some .directory := by
    rw [hentry]
    nofun
  rw [extend_of_file more (locate_putFile hnodirectory hlocate) entryAt?_putFile_self,
    putFile_putFile]
  rfl

/-- **A text is added** behind what the file held, or to a new file if there was none. -/
theorem append_of_writableAt (hnul : p.hasNul = false) (hlocate : disk.locate p = .ok location)
    (h : disk.WritableAt location) (text : String) : disk.append p text =
      (disk.putFile location (disk.bytesAt p ++ text.toUTF8.toList), none) := by
  have hfind := find_of_locate hlocate
  cases hentry : disk.entryAt? location with
  | some entry =>
    cases entry with
    | directory => exact absurd hentry h.noDirectory
    | file bytes =>
      have hheld : disk.bytesAt p = bytes := by
        rw [bytesAt, hfind, hentry]
        rfl
      rw [append, ensure_of_present hnul hlocate hentry]
      simp only [extend_of_file _ hlocate hentry, h.grows, Option.elim_none, hheld]
  | none =>
    have hheld : disk.bytesAt p = [] := by
      rw [bytesAt, hfind, hentry]
      rfl
    rw [append, ensure_of_absent hnul hlocate hentry, h.makes hentry]
    simp only [Option.elim_none, extend_putFile _ hlocate hentry, h.grows, hheld, List.nil_append]

/-- **A file that may only be made** is left empty. -/
theorem append_of_onlyMakes (hnul : p.hasNul = false) (hlocate : disk.locate p = .ok location)
    (h : disk.OnlyMakes location) (text : String) :
    ∃ e, disk.append p text = (disk.putFile location [], some e) := by
  obtain ⟨e, he⟩ := Option.ne_none_iff_exists'.mp h.refuses
  refine ⟨.refused e, ?_⟩
  rw [append, ensure_of_absent hnul hlocate h.absent, h.makes]
  simp only [Option.elim_none, extend_putFile _ hlocate h.absent, he, Option.elim_some]

/-- **A path that cannot be written to** and at which no file is made leaves the disk alone. -/
theorem append_of_not_writable (hnul : p.hasNul = false) (h : ¬ disk.Writable p)
    (hmakes : ∀ location, disk.locate p = .ok location → ¬ disk.OnlyMakes location)
    (text : String) : ∃ e, disk.append p text = (disk, some e) := by
  cases hlocate : disk.locate p with
  | error e =>
    refine ⟨.refusedAt e p.text, ?_⟩
    rw [append, ensure_of_locate_error hnul hlocate]
  | ok location =>
    have hnot : ¬ disk.WritableAt location := fun hat => h ⟨location, hlocate, hat⟩
    cases hentry : disk.entryAt? location with
    | some entry =>
      rw [append, ensure_of_present hnul hlocate hentry]
      cases entry with
      | directory =>
        simp only [extend_of_directory _ hlocate hentry]
        exact ⟨_, rfl⟩
      | file bytes =>
        cases hwrite : disk.refusals.write location with
        | none =>
          refine absurd ⟨?_, ?_, hwrite⟩ hnot <;> rw [hentry] <;> nofun
        | some e =>
          simp only [extend_of_file _ hlocate hentry, hwrite, Option.elim_some]
          exact ⟨_, rfl⟩
    | none =>
      rw [append, ensure_of_absent hnul hlocate hentry]
      cases hcreate : disk.refusals.create location with
      | some e => exact ⟨_, rfl⟩
      | none =>
        cases hwrite : disk.refusals.write location with
        | none => exact absurd ⟨by rw [hentry]; nofun, fun _ => hcreate, hwrite⟩ hnot
        | some e => exact absurd ⟨hentry, hcreate, by rw [hwrite]; nofun⟩ (hmakes location hlocate)

/-- What cannot be written is refused, whether or not a file was made for it. -/
theorem exists_of_not_writable (hnul : p.hasNul = false) (h : ¬ disk.Writable p) (text : String) :
    ∃ left e, disk.append p text = (left, some e) := by
  by_cases hmakes : ∃ location, disk.locate p = .ok location ∧ disk.OnlyMakes location
  · obtain ⟨location, hlocate, hat⟩ := hmakes
    obtain ⟨e, happend⟩ := append_of_onlyMakes hnul hlocate hat text
    exact ⟨_, e, happend⟩
  · obtain ⟨e, happend⟩ := append_of_not_writable hnul h
      (fun location hlocate hat => hmakes ⟨location, hlocate, hat⟩) text
    exact ⟨_, e, happend⟩

end Append

end Disk

namespace Text

/-! ### Texts as bytes -/

/-- A list is made of bytes from a position on, behind those before. -/
theorem toList_loop_eq (bs : ByteArray) (i : ℕ) (before : List UInt8) :
    ByteArray.toList.loop bs i before = before.reverse ++ bs.data.toList.drop i := by
  fun_induction ByteArray.toList.loop bs i before with
  | case1 i before hlt ih =>
    have hi : i < bs.data.toList.length := hlt
    have hbyte : bs.get! i = bs.data.toList[i] := getElem!_pos bs.data i hlt
    rw [ih, List.drop_eq_getElem_cons hi, hbyte, List.reverse_cons, List.append_assoc]
    rfl
  | case2 i before hge =>
    have hend : bs.data.toList.length ≤ i := Nat.le_of_not_lt hge
    rw [List.drop_eq_nil_of_le hend, List.append_nil]

/-- The bytes of a text behind another one are behind the bytes of that one. -/
theorem bytes_append (s t : String) :
    (s ++ t).toUTF8.toList = s.toUTF8.toList ++ t.toUTF8.toList := by
  have hlist : ∀ bs : ByteArray, bs.toList = bs.data.toList := fun bs => by
    rw [ByteArray.toList, toList_loop_eq, List.reverse_nil, List.nil_append, List.drop_zero]
  rw [hlist, hlist, hlist]
  show (s ++ t).toByteArray.data.toList = _
  rw [String.toByteArray_append, ByteArray.toList_data_append]
  rfl

end Text
end SmallLisp
