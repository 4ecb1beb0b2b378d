import Mathlib.Data.List.TakeWhile
import UsecaseAudit.SpecPath

/-!
# One convention for all specs

The places of specs are given case by case: usecases in `layered`, usecases in
`app`, names that end in `_usecase.rb`, rake files in `lib`.  All cases are one
rule.  The path moves below `spec`, without an `app` in front if it is that of a
usecase, and `_spec.rb` takes the place of its extension.

The extension of a path is what follows the last dot of the last component, and
the dots in front of that component are no part of it.
-/

namespace UsecaseAudit

/-!
# Beginnings and endings of texts
-/

namespace Affix

theorem starts_iff {text part : String} :
    starts text part = true ↔ ∃ rest, text = part ++ rest := by
  unfold starts
  rw [List.isPrefixOf_iff_prefix]
  constructor
  · rintro ⟨rest, hrest⟩
    refine ⟨String.ofList rest, ?_⟩
    rw [← String.toList_inj, String.toList_append, String.toList_ofList, hrest]
  · rintro ⟨rest, rfl⟩
    exact ⟨rest.toList, String.toList_append.symm⟩

theorem ends_iff {text part : String} : ends text part = true ↔ ∃ front, text = front ++ part := by
  unfold ends
  rw [List.isSuffixOf_iff_suffix]
  constructor
  · rintro ⟨front, hfront⟩
    refine ⟨String.ofList front, ?_⟩
    rw [← String.toList_inj, String.toList_append, String.toList_ofList, hfront]
  · rintro ⟨front, rfl⟩
    exact ⟨front.toList, String.toList_append.symm⟩

theorem starts_append (part text : String) : starts (part ++ text) part = true :=
  starts_iff.mpr ⟨text, rfl⟩

theorem dropFirst_append (part text : String) : dropFirst (part ++ text) part.length = text := by
  unfold dropFirst
  rw [String.toList_append, ← String.length_toList, List.drop_left, String.ofList_toList]

theorem dropLast_append (text part : String) : dropLast (text ++ part) part.length = text := by
  unfold dropLast
  rw [String.toList_append, List.length_append, ← String.length_toList, Nat.add_sub_cancel,
    List.take_left, String.ofList_toList]

end Affix

namespace SpecPath

/-!
# Folder and base name
-/

theorem folderChars_append_baseChars (path : List Char) :
    folderChars path ++ baseChars path = path := by
  unfold folderChars baseChars
  rw [← List.reverse_append, List.takeWhile_append_dropWhile, List.reverse_reverse]

theorem slash_not_mem_baseChars (path : List Char) : '/' ∉ baseChars path := by
  intro hmem
  have hpass := List.mem_takeWhile_imp (List.mem_reverse.mp hmem)
  exact absurd hpass (by decide)

theorem pass_of_slash_not_mem {last : List Char} (h : '/' ∉ last) :
    ∀ c ∈ last.reverse, (c != '/') = true := by
  intro c hc
  exact bne_iff_ne.mpr fun heq => h (heq ▸ List.mem_reverse.mp hc)

theorem baseChars_append (path : List Char) {last : List Char} (h : '/' ∉ last) :
    baseChars (path ++ last) = baseChars path ++ last := by
  unfold baseChars
  rw [List.reverse_append, List.takeWhile_append_of_pos (pass_of_slash_not_mem h),
    List.reverse_append, List.reverse_reverse]

theorem folderChars_append (path : List Char) {last : List Char} (h : '/' ∉ last) :
    folderChars (path ++ last) = folderChars path := by
  unfold folderChars
  rw [List.reverse_append, List.dropWhile_append_of_pos (pass_of_slash_not_mem h)]

theorem folderChars_slash (front rest : List Char) :
    folderChars (front ++ '/' :: rest) = front ++ '/' :: folderChars rest := by
  unfold folderChars
  rw [List.reverse_append, List.reverse_cons, List.append_assoc, List.dropWhile_append]
  split
  · next hempty =>
    rw [List.isEmpty_iff.mp hempty]
    simp
  · simp

theorem baseChars_folderChars (path : List Char) : baseChars (folderChars path) = [] := by
  have hsplit := baseChars_append (folderChars path) (slash_not_mem_baseChars path)
  rw [folderChars_append_baseChars] at hsplit
  exact List.append_left_eq_self.mp hsplit.symm

theorem folderChars_folderChars (path : List Char) :
    folderChars (folderChars path) = folderChars path := by
  have hsplit := folderChars_append_baseChars (folderChars path)
  rw [baseChars_folderChars, List.append_nil] at hsplit
  exact hsplit

/-!
# Extensions
-/

theorem beforeLastDot_append {front last : List Char} (hlast : '.' ∉ last) :
    beforeLastDot (front ++ '.' :: last) = front := by
  have hpass : ∀ c ∈ last.reverse, (c != '.') = true := by
    intro c hc
    exact bne_iff_ne.mpr (fun heq => hlast (heq ▸ List.mem_reverse.mp hc))
  unfold beforeLastDot
  rw [List.reverse_append, List.reverse_cons, List.append_assoc,
    List.dropWhile_append_of_pos hpass]
  simp

theorem baseStem_extension {name last : List Char} (hname : ∃ c ∈ name, c ≠ '.')
    (hlast : '.' ∉ last) : baseStem (name ++ '.' :: last) = name := by
  have hsplit := List.takeWhile_append_dropWhile (p := (· == '.')) (l := name)
  have hvisible : name.dropWhile (· == '.') ≠ [] := by
    intro hnil
    rcases hname with ⟨c, hc, hne⟩
    exact hne (beq_iff_eq.mp (List.dropWhile_eq_nil_iff.mp hnil c hc))
  have hdrop : (name ++ '.' :: last).dropWhile (· == '.') =
      name.dropWhile (· == '.') ++ '.' :: last := by
    rw [List.dropWhile_append, if_neg (by simpa using hvisible)]
  have htake : (name ++ '.' :: last).takeWhile (· == '.') = name.takeWhile (· == '.') := by
    rw [List.takeWhile_append, if_neg]
    intro hlength
    have hlengths := congrArg List.length hsplit
    rw [List.length_append] at hlengths
    exact hvisible (List.eq_nil_of_length_eq_zero (by omega))
  -- the last dot is looked for behind the dots in front, and these are put back
  unfold baseStem
  rw [hdrop, htake, if_pos (by simp), beforeLastDot_append hlast, hsplit]

/-- A path that ends in an extension: a dot of the last component that is the last one and does not
stand among the dots in front, and what follows it. -/
structure Extends (path name ext : String) : Prop where
  path_eq : path = name ++ "." ++ ext
  lastDot : '.' ∉ ext.toList
  lastComponent : '/' ∉ ext.toList
  notInFront : ∃ c ∈ baseChars name.toList, c ≠ '.'

/-- The part of a path before its extension, which is all of a path without one. -/
inductive HasStem (path : String) : String → Prop where
  | extension {name ext : String} : Extends path name ext → HasStem path name
  | whole : (∀ name ext, ¬ Extends path name ext) → HasStem path path

theorem stem_of_extends {path name ext : String} (h : Extends path name ext) :
    stem path = name := by
  have hpath : path.toList = name.toList ++ '.' :: ext.toList := by
    rw [h.path_eq]
    simp
  have hslash : '/' ∉ '.' :: ext.toList := by
    simp [h.lastComponent]
  rw [stem, hpath, folderChars_append _ hslash, baseChars_append _ hslash,
    baseStem_extension h.notInFront h.lastDot, folderChars_append_baseChars, String.ofList_toList]

theorem exists_extension {base : List Char} (h : '.' ∈ base.dropWhile (· == '.')) :
    ∃ name last, base = name ++ '.' :: last ∧ '.' ∉ last ∧ ∃ c ∈ name, c ≠ '.' := by
  have hsplit := List.takeWhile_append_dropWhile (p := (· == '.')) (l := base)
  rcases List.eq_append_cons_of_mem (List.mem_reverse.mpr h) with ⟨last, front, hreverse, hlast⟩
  have hvisible : base.dropWhile (· == '.') = front.reverse ++ '.' :: last.reverse := by
    rw [← List.reverse_reverse (base.dropWhile _), hreverse]
    simp
  refine ⟨base.takeWhile (· == '.') ++ front.reverse, last.reverse, ?_, ?_, ?_⟩
  · rw [List.append_assoc, ← hvisible, hsplit]
  · rw [List.mem_reverse]
    exact hlast
  · -- the first character that is left is no dot, so something stands before the last dot
    have hhead := List.head?_dropWhile_not (· == '.') base
    rw [hvisible] at hhead
    cases hfront : front.reverse with
    | nil =>
        rw [hfront, List.nil_append] at hhead
        cases hhead
    | cons c rest =>
        rw [hfront] at hhead
        exact ⟨c, List.mem_append_right _ List.mem_cons_self, beq_eq_false_iff_ne.mp hhead⟩

theorem extends_of_baseChars {path : String} {name last : List Char}
    (hbase : baseChars path.toList = name ++ '.' :: last) (hlast : '.' ∉ last)
    (hname : ∃ c ∈ name, c ≠ '.') :
    Extends path (String.ofList (folderChars path.toList ++ name)) (String.ofList last) := by
  have hslash := slash_not_mem_baseChars path.toList
  rw [hbase, List.mem_append, List.mem_cons, not_or, not_or] at hslash
  rcases hslash with ⟨hslashName, -, hslashLast⟩
  have hpath := folderChars_append_baseChars path.toList
  rw [hbase] at hpath
  refine ⟨?_, ?_, ?_, ?_⟩
  · rw [← String.toList_inj]
    simpa using hpath.symm
  · rw [String.toList_ofList]
    exact hlast
  · rw [String.toList_ofList]
    exact hslashLast
  · rw [String.toList_ofList, baseChars_append _ hslashName, baseChars_folderChars,
      List.nil_append]
    exact hname

theorem stem_of_not_extends {path : String} (h : ∀ name ext, ¬ Extends path name ext) :
    stem path = path := by
  have hvisible : ((baseChars path.toList).dropWhile (· == '.')).contains '.' = false := by
    rw [Bool.eq_false_iff]
    intro hdot
    rcases exists_extension (List.contains_iff_mem.mp hdot) with ⟨name, last, hbase, hlast, hname⟩
    exact h _ _ (extends_of_baseChars hbase hlast hname)
  rw [stem, baseStem, hvisible, if_neg Bool.false_ne_true, folderChars_append_baseChars,
    String.ofList_toList]

theorem hasStem_stem (path : String) : HasStem path (stem path) := by
  by_cases h : ∃ name ext, Extends path name ext
  · rcases h with ⟨name, ext, hext⟩
    rw [stem_of_extends hext]
    exact .extension hext
  · have hnone : ∀ name ext, ¬ Extends path name ext := fun name ext hext => h ⟨name, ext, hext⟩
    rw [stem_of_not_extends hnone]
    exact .whole hnone

theorem mem_of_mem_baseStem {base : List Char} {c : Char} (h : c ∈ baseStem base) : c ∈ base := by
  unfold baseStem at h
  dsimp only at h
  split at h
  · rcases List.mem_append.mp h with hfront | hvisible
    · exact (List.takeWhile_sublist _).mem hfront
    · unfold beforeLastDot at hvisible
      have hdropped := List.mem_of_mem_drop (List.mem_reverse.mp hvisible)
      have hreverse := List.mem_reverse.mp ((List.dropWhile_sublist _).mem hdropped)
      exact (List.dropWhile_sublist _).mem hreverse
  · exact h

/-!
# The cases of the conventions
-/

theorem belowSpec_app (text : String) : belowSpec ("app/" ++ text) = "spec/" ++ text := by
  have hlayered : Affix.starts ("app/" ++ text) "layered/" = false := by
    unfold Affix.starts
    rw [String.toList_append]
    rfl
  have hdrop : Affix.dropFirst ("app/" ++ text) 4 = text := Affix.dropFirst_append "app/" text
  unfold belowSpec
  rw [hlayered, Affix.starts_append, hdrop]
  rfl

theorem belowSpec_layered (text : String) :
    belowSpec ("layered/" ++ text) = "spec/" ++ ("layered/" ++ text) := by
  have hspec : "spec/" ++ "layered/" = "spec/layered/" := rfl
  have hdrop : Affix.dropFirst ("layered/" ++ text) 8 = text :=
    Affix.dropFirst_append "layered/" text
  unfold belowSpec
  rw [Affix.starts_append, if_pos rfl, hdrop, ← String.append_assoc, hspec]

theorem ofUsecase_of_belowSpec {path text : String}
    (h : belowSpec path = text ++ "_usecase.rb") :
    ofUsecase path = text ++ "_usecase" ++ "_spec.rb" := by
  have hends : Affix.ends (text ++ "_usecase.rb") usecaseSuffix = true :=
    Affix.ends_iff.mpr ⟨text, rfl⟩
  unfold ofUsecase
  dsimp only
  rw [h, if_pos hends, String.append_assoc]
  exact congrArg (· ++ "_usecase_spec.rb") (Affix.dropLast_append text "_usecase.rb")

theorem ofTask_lib (text : String) :
    ofTask ("lib/" ++ text) = specName ("spec/" ++ ("lib/" ++ text)) := by
  have hspec : "spec/" ++ "lib/" = "spec/lib/" := rfl
  have hdrop : Affix.dropFirst ("lib/" ++ text) 4 = text := Affix.dropFirst_append "lib/" text
  unfold ofTask
  rw [Affix.starts_append, if_pos rfl, hdrop, ← String.append_assoc, hspec]

/-!
# One rule
-/

def withoutApp (path : String) : String :=
  if Affix.starts path "app/" then Affix.dropFirst path 4 else path

theorem belowSpec_eq (path : String) : belowSpec path = "spec/" ++ withoutApp path := by
  cases happ : Affix.starts path "app/" with
  | true =>
      rcases Affix.starts_iff.mp happ with ⟨text, rfl⟩
      have hdrop : Affix.dropFirst ("app/" ++ text) 4 = text := Affix.dropFirst_append "app/" text
      rw [belowSpec_app, withoutApp, happ, if_pos rfl, hdrop]
  | false =>
      rw [withoutApp, happ, if_neg Bool.false_ne_true]
      cases hlayered : Affix.starts path "layered/" with
      | true =>
          rcases Affix.starts_iff.mp hlayered with ⟨text, rfl⟩
          exact belowSpec_layered text
      | false =>
          rw [belowSpec, hlayered, happ]
          rfl

/-- A name in `_usecase.rb` has the extension `rb`, whatever dots stand in it. -/
theorem extends_usecase (text : String) :
    Extends (text ++ "_usecase.rb") (text ++ "_usecase") "rb" where
  path_eq := by
    rw [String.append_assoc, String.append_assoc]
    rfl
  lastDot := by decide
  lastComponent := by decide
  notInFront := by
    rw [String.toList_append, baseChars_append _ (by decide)]
    exact ⟨'_', List.mem_append_right _ (by decide), by decide⟩

theorem ofUsecase_eq (path : String) : ofUsecase path = specName (belowSpec path) := by
  cases hends : Affix.ends (belowSpec path) usecaseSuffix with
  | true =>
      rcases Affix.ends_iff.mp hends with ⟨text, htext⟩
      have hmoved : belowSpec path = text ++ "_usecase.rb" := htext
      rw [ofUsecase_of_belowSpec hmoved, specName, hmoved, stem_of_extends (extends_usecase text)]
  | false =>
      unfold ofUsecase
      dsimp only
      rw [hends, if_neg Bool.false_ne_true]

theorem ofTask_eq (path : String) : ofTask path = specName ("spec/" ++ path) := by
  cases hlib : Affix.starts path "lib/" with
  | true =>
      rcases Affix.starts_iff.mp hlib with ⟨text, rfl⟩
      exact ofTask_lib text
  | false =>
      rw [ofTask, hlib]
      rfl

/-- The spec of a path that was moved: below `spec/` and in the same folder, with `_spec.rb` in
place of the extension. -/
structure IsSpecOf (moved spec : String) : Prop where
  below : Affix.starts spec "spec/" = true
  folder : folderChars spec.toList = folderChars moved.toList
  named : ∃ name, HasStem moved name ∧ spec = name ++ "_spec.rb"
  ending : Affix.ends spec "_spec.rb" = true

theorem toList_specName (path : String) : (specName path).toList =
    folderChars path.toList ++ (baseStem (baseChars path.toList) ++ "_spec.rb".toList) := by
  rw [specName, stem, String.toList_append, String.toList_ofList, List.append_assoc]

theorem folderChars_specName (path : String) :
    folderChars (specName path).toList = folderChars path.toList := by
  have hslash : '/' ∉ baseStem (baseChars path.toList) ++ "_spec.rb".toList := by
    rw [List.mem_append, not_or]
    exact ⟨fun hmem => slash_not_mem_baseChars _ (mem_of_mem_baseStem hmem), by decide⟩
  rw [toList_specName, folderChars_append _ hslash, folderChars_folderChars]

theorem isSpecOf_specName (text : String) :
    IsSpecOf ("spec/" ++ text) (specName ("spec/" ++ text)) where
  below := by
    have hmoved : ("spec/" ++ text).toList = "spec".toList ++ '/' :: text.toList := by
      rw [String.toList_append]
      rfl
    unfold Affix.starts
    rw [List.isPrefixOf_iff_prefix, toList_specName, hmoved, folderChars_slash]
    exact ⟨_, rfl⟩
  folder := folderChars_specName _
  named := ⟨_, hasStem_stem _, rfl⟩
  ending := Affix.ends_iff.mpr ⟨_, rfl⟩

/-- Both conventions put the spec of a path where one rule puts it. -/
theorem conventions_eq (path : String) :
    ofUsecase path = specName ("spec/" ++ withoutApp path) ∧
    ofTask path = specName ("spec/" ++ path) ∧
    IsSpecOf ("spec/" ++ withoutApp path) (ofUsecase path) ∧
    IsSpecOf ("spec/" ++ path) (ofTask path) := by
  have husecase : ofUsecase path = specName ("spec/" ++ withoutApp path) := by
    rw [ofUsecase_eq, belowSpec_eq]
  refine ⟨husecase, ofTask_eq path, ?_, ?_⟩
  · rw [husecase]
    exact isSpecOf_specName _
  · rw [ofTask_eq]
    exact isSpecOf_specName _

end SpecPath
end UsecaseAudit
