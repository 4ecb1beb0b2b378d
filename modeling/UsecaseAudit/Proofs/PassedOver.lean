import UsecaseAudit.Proofs.Lists
import UsecaseAudit.Proofs.ReadCalls

/-!
# What reading passes over

Of a child that is not read as a statement only the label matters: what lies
below it has no part in what the tree is read as.  Such children are the ones
without a name in the grammar, parameter lists and comments, the name of a
class, and the name and the parameters of a method, unless reading goes to them
because they are a part of their parent.

Two trees are alike when they differ below such children only, at any number of
places.  They are read as the same code, or both take too much of the stack.
-/

namespace UsecaseAudit
namespace Concrete

/-!
# Trees that are alike
-/

def partFields (t : Concrete) : Manner → List String
  | .body => []
  | .whole =>
      match t.form with
      | .call => ["receiver", "arguments", "block"]
      | .assignment => if t.isPlainAssignment then ["right"] else []
      | .scopePath => if t.endsInConstant then ["scope"] else []
      | _ => []

inductive Skips (m : Manner) (t c : Concrete) : Prop where
  | unnamed : c.label.named = false → Skips m t c
  | silent : c.kind ∈ silentKinds → Skips m t c
  | className : m = .whole → t.kind = "class" → c.label.field = some "name" → Skips m t c
  | methodName : m = .whole → t.kind = "method" → c.label.field = some "name" → Skips m t c
  | methodParameters :
      m = .whole → t.kind = "method" → c.label.field = some "parameters" → Skips m t c

/-- A child is passed over when it is neither a statement nor a part of its parent. -/
structure PassesOver (m : Manner) (t : Concrete) (index : Nat) (c : Concrete) : Prop where
  skips : Skips m t c
  no_part : ∀ field ∈ t.partFields m, t.fieldIndex? field ≠ some index

/-- The manner in which a child is read: the arguments of a call only for the statements in them. -/
def mannerAt (m : Manner) (t : Concrete) (index : Nat) : Manner :=
  if m = .whole ∧ t.form = .call ∧ t.fieldIndex? "arguments" = some index then .body else .whole

/-- Two trees that differ only below children that are passed over. -/
inductive Alike : Manner → Concrete → Concrete → Prop where
  | intro {m : Manner} {t t' : Concrete} : t.label = t'.label →
      t.children.map label = t'.children.map label →
      (∀ index c c', t.children[index]? = some c → t'.children[index]? = some c' →
        ¬ PassesOver m t index c → Alike (t.mannerAt m index) c c') →
      Alike m t t'

theorem Alike.refl (m : Manner) (t : Concrete) : Alike m t t := by
  refine Alike.intro rfl rfl ?_
  intro index c c' hc hc' _
  have hlt := sizeOf_lt_of_mem_children (List.mem_of_getElem? hc)
  cases hc.symm.trans hc'
  exact Alike.refl _ c
termination_by sizeOf t

/-- Trees are alike when one of their children is replaced by another with the same label, which is
passed over or alike. -/
theorem Alike.of_child {m : Manner} {label : Label} (before after : List Concrete)
    {c c' : Concrete} (hlabel : c.label = c'.label)
    (h : ¬ PassesOver m ⟨label, before ++ c :: after⟩ before.length c →
      Alike (mannerAt m ⟨label, before ++ c :: after⟩ before.length) c c') :
    Alike m ⟨label, before ++ c :: after⟩ ⟨label, before ++ c' :: after⟩ := by
  refine Alike.intro rfl ?_ ?_
  · rw [List.map_append, List.map_append, List.map_cons, List.map_cons, hlabel]
  · intro index d d' hd hd' hread
    dsimp only at hd hd'
    rcases Nat.lt_trichotomy index before.length with hlt | rfl | hgt
    · rw [List.getElem?_append_left hlt] at hd hd'
      cases hd.symm.trans hd'
      exact Alike.refl _ d
    · rw [List.getElem?_append_right (Nat.le_refl _), Nat.sub_self] at hd hd'
      cases hd
      cases hd'
      exact h hread
    · rw [List.getElem?_append_right (Nat.le_of_lt hgt)] at hd hd'
      obtain ⟨k, hk⟩ : ∃ k, index - before.length = k + 1 :=
        ⟨index - before.length - 1, by omega⟩
      rw [hk, List.getElem?_cons_succ] at hd hd'
      cases hd.symm.trans hd'
      exact Alike.refl _ d

theorem Alike.label_eq {m : Manner} {t t' : Concrete} (h : Alike m t t') : t.label = t'.label := by
  cases h with
  | intro hlabel _ _ => exact hlabel

theorem Alike.labels_eq {m : Manner} {t t' : Concrete} (h : Alike m t t') :
    t.children.map label = t'.children.map label := by
  cases h with
  | intro _ hlabels _ => exact hlabels

theorem Alike.deeper {m : Manner} {t t' c c' : Concrete} {index : Nat} (h : Alike m t t')
    (hc : t.children[index]? = some c) (hc' : t'.children[index]? = some c')
    (hread : ¬ PassesOver m t index c) : Alike (t.mannerAt m index) c c' := by
  cases h with
  | intro _ _ hdeeper => exact hdeeper index c c' hc hc' hread

/-!
# What labels decide
-/

section Labels

variable {t t' : Concrete}

theorem text_eq_of_label (source : List UInt8) (h : t.label = t'.label) :
    t.text source = t'.text source := by
  rw [text, text, h]

theorem kind_eq_of_label (h : t.label = t'.label) : t.kind = t'.kind :=
  congrArg Label.kind h

theorem form_eq_of_label (h : t.label = t'.label) : t.form = t'.form :=
  congrArg Form.ofKind (kind_eq_of_label h)

theorem isBody_eq_of_label (h : t.label = t'.label) : t.isBody = t'.isBody := by
  rw [isBody, isBody, kind_eq_of_label h]

theorem isTarget_eq_of_label (h : t.label = t'.label) : t.isTarget = t'.isTarget := by
  rw [isTarget, isTarget, kind_eq_of_label h]

theorem line_eq_of_label (h : t.label = t'.label) : t.line = t'.line := by
  rw [line, line, h]

variable (h : t.children.map label = t'.children.map label)

include h

theorem map_label_child? (field : String) :
    (t.child? field).map label = (t'.child? field).map label := by
  have hfind : ∀ s : Concrete, (s.child? field).map label =
      (s.children.map label).find? fun l => l.field == some field := by
    intro s
    rw [child?, List.find?_map]
    rfl
  rw [hfind, hfind, h]

theorem fieldIndex?_eq_of_labels (field : String) : t.fieldIndex? field = t'.fieldIndex? field := by
  have hfind : ∀ s : Concrete, s.fieldIndex? field =
      (s.children.map label).findIdx? fun l => l.field == some field := by
    intro s
    rw [fieldIndex?, List.findIdx?_map]
    rfl
  rw [hfind, hfind, h]

theorem child?_cases_of_labels (field : String) :
    (t.child? field = none ∧ t'.child? field = none) ∨
      ∃ c c', t.child? field = some c ∧ t'.child? field = some c' ∧ c.label = c'.label := by
  have hchild := map_label_child? h field
  cases hc : t.child? field with
  | none =>
      rw [hc] at hchild
      exact Or.inl ⟨rfl, Option.map_eq_none_iff.mp hchild.symm⟩
  | some c =>
      rw [hc] at hchild
      rcases Option.map_eq_some_iff.mp hchild.symm with ⟨c', hc', hlabel⟩
      exact Or.inr ⟨c, c', rfl, hc', hlabel.symm⟩

theorem map_child?_eq_of_labels {α : Type} {f : Concrete → α}
    (hf : ∀ {c c'}, c.label = c'.label → f c = f c') (field : String) :
    (t.child? field).map f = (t'.child? field).map f := by
  rcases child?_cases_of_labels h field with ⟨hnone, hnone'⟩ | ⟨c, c', hc, hc', hlabel⟩
  · rw [hnone, hnone']
  · rw [hc, hc', Option.map_some, Option.map_some, hf hlabel]

theorem literal?_eq_of_labels (source : List UInt8) : t.literal? source = t'.literal? source := by
  have hliteral : ∀ s : Concrete, s.literal? source =
      let parts := (s.children.map label).filter fun l => l.named
      if parts.all fun l => l.kind == "string_content" || l.kind == "escape_sequence" then
        some (String.join (parts.map fun l =>
          Utf8.decodeLossy (Utf8.slice l.start l.stop source)))
      else none := by
    intro s
    dsimp only
    rw [List.filter_map, List.all_map, List.map_map]
    rfl
  rw [hliteral, hliteral, h]

theorem callName?_eq_of_labels (source : List UInt8) :
    t.callName? source = t'.callName? source := by
  have hname : ∀ s : Concrete, s.callName? source = ((s.child? "method").map fun m =>
      if m.kind == "argument_list" then none else some (m.text source)).join := by
    intro s
    rw [callName?]
    cases s.child? "method" with
    | none => rfl
    | some m => rfl
  rw [hname, hname]
  refine congrArg Option.join (map_child?_eq_of_labels h (fun {c c'} hlabel => ?_) "method")
  rw [kind_eq_of_label hlabel, text_eq_of_label source hlabel]

end Labels

/-!
# What reading goes to is alike
-/

def apartFields (t : Concrete) : Manner → List String
  | .body => []
  | .whole =>
      match t.form with
      | .classDef => ["name"]
      | .methodDef => ["name", "parameters"]
      | _ => []

section Alike

variable {m : Manner} {t t' c : Concrete}

theorem Skips.not_statement (h : Skips m t c) :
    (!c.isSilent && !standsIn (t.apartFields m) c) = false := by
  cases h with
  | unnamed hnamed =>
      rw [isSilent, hnamed]
      rfl
  | silent hkind =>
      have hsilent : silentKinds.contains c.kind = true := List.contains_iff_mem.mpr hkind
      rw [isSilent, hsilent, Bool.or_true]
      rfl
  | className hm hkind hfield =>
      rw [hm, apartFields, (form_eq_iff .classDef rfl).mpr hkind, standsIn, hfield]
      exact Bool.and_false _
  | methodName hm hkind hfield =>
      rw [hm, apartFields, (form_eq_iff .methodDef rfl).mpr hkind, standsIn, hfield]
      exact Bool.and_false _
  | methodParameters hm hkind hfield =>
      rw [hm, apartFields, (form_eq_iff .methodDef rfl).mpr hkind, standsIn, hfield]
      exact Bool.and_false _

theorem mannerAt_of_form_ne (hform : m = .whole → t.form ≠ .call) (index : Nat) :
    t.mannerAt m index = .whole :=
  if_neg fun h => hform h.left h.right.left

theorem Alike.forall₂_label (h : Alike m t t') :
    List.Forall₂ (fun c c' => c.label = c'.label) t.children t'.children := by
  have hlabels := h.labels_eq
  rwa [← List.forall₂_eq_eq_eq, List.forall₂_map_left_iff, List.forall₂_map_right_iff] at hlabels

theorem Alike.statements (h : Alike m t t') (hform : m = .whole → t.form ≠ .call) :
    List.Forall₂ (Alike .whole) (t.statements (t.apartFields m))
      (t'.statements (t.apartFields m)) := by
  rcases List.forall₂_iff_get.mp h.forall₂_label with ⟨hlength, hlabel⟩
  have hchildren : List.Forall₂ (fun c c' => c.label = c'.label ∧
      (¬ Skips m t c → Alike .whole c c')) t.children t'.children := by
    refine List.forall₂_iff_get.mpr ⟨hlength, fun index hindex hindex' => ?_⟩
    refine ⟨hlabel index hindex hindex', fun hread => ?_⟩
    rw [← mannerAt_of_form_ne hform index]
    exact h.deeper (List.getElem?_eq_getElem hindex) (List.getElem?_eq_getElem hindex')
      fun hpasses => hread hpasses.skips
  refine Lists.forall₂_filter hchildren ?_ ?_
  · intro c c' hcc
    rw [isSilent, isSilent, standsIn, standsIn, kind_eq_of_label hcc.left, hcc.left]
  · intro c c' hcc hkeep
    exact hcc.right fun hskips => Bool.false_ne_true (hskips.not_statement.symm.trans hkeep)

theorem exists_index_of_child? {field : String} (h : t.child? field = some c) :
    ∃ index, t.fieldIndex? field = some index ∧ t.children[index]? = some c := by
  rw [child?, List.find?_eq_bind_findIdx?_getElem?] at h
  exact Option.bind_eq_some_iff.mp h

theorem field_of_fieldIndex? {field : String} {index : Nat}
    (h : t.fieldIndex? field = some index) :
    ∃ c, t.children[index]? = some c ∧ c.label.field = some field := by
  rcases List.findIdx?_eq_some_iff_getElem.mp h with ⟨hindex, hfield, _⟩
  exact ⟨_, List.getElem?_eq_getElem hindex, beq_iff_eq.mp hfield⟩

theorem field_unique {field field' : String} {index : Nat} (h : t.fieldIndex? field = some index)
    (h' : t.fieldIndex? field' = some index) : field = field' := by
  rcases field_of_fieldIndex? h with ⟨c, hc, hfield⟩
  rcases field_of_fieldIndex? h' with ⟨c', hc', hfield'⟩
  cases hc.symm.trans hc'
  exact Option.some.inj (hfield.symm.trans hfield')

theorem Alike.part (h : Alike .whole t t') {field : String} (hpart : field ∈ t.partFields .whole) :
    (t.child? field = none ∧ t'.child? field = none) ∨
      ∃ c c' index, t.child? field = some c ∧ t'.child? field = some c' ∧
        t.fieldIndex? field = some index ∧ Alike (t.mannerAt .whole index) c c' := by
  rcases child?_cases_of_labels h.labels_eq field with hnone | ⟨c, c', hc, hc', _⟩
  · exact Or.inl hnone
  · rcases exists_index_of_child? hc with ⟨index, hindex, hat⟩
    rcases exists_index_of_child? hc' with ⟨index', hindex', hat'⟩
    rw [← fieldIndex?_eq_of_labels h.labels_eq, hindex] at hindex'
    cases hindex'
    refine Or.inr ⟨c, c', index, hc, hc', hindex, h.deeper hat hat' ?_⟩
    exact fun hpasses => hpasses.no_part field hpart hindex

theorem Alike.body_of_whole (h : Alike .whole t t') (hform : t.form = .other) :
    Alike .body t t' := by
  refine Alike.intro h.label_eq h.labels_eq fun index c c' hc hc' hread => ?_
  have hmanner : t.mannerAt .body index = t.mannerAt .whole index := by
    rw [mannerAt_of_form_ne (fun hm => by cases hm),
      mannerAt_of_form_ne (fun _ => by rw [hform]; decide)]
  rw [hmanner]
  refine h.deeper hc hc' fun hpasses => hread ⟨?_, fun field hfield => by cases hfield⟩
  cases hpasses.skips with
  | unnamed hnamed =>
      exact Skips.unnamed hnamed
  | silent hkind =>
      exact Skips.silent hkind
  | className _ hkind _ =>
      rw [(form_eq_iff .classDef rfl).mpr hkind] at hform
      cases hform
  | methodName _ hkind _ =>
      rw [(form_eq_iff .methodDef rfl).mpr hkind] at hform
      cases hform
  | methodParameters _ hkind _ =>
      rw [(form_eq_iff .methodDef rfl).mpr hkind] at hform
      cases hform

theorem form_of_isBody (h : t.isBody = true) : t.form = .other := by
  rcases Bool.or_eq_true_iff.mp h with hkind | hkind
  · rw [form, beq_iff_eq.mp hkind]
    rfl
  · rw [form, beq_iff_eq.mp hkind]
    rfl

end Alike

end Concrete

namespace Code

open Concrete

/-!
# One level of reading
-/

section Level

variable {source : List UInt8} {whole : Concrete → Option Code}
variable {statements : List String → Concrete → Option (List Code)}
variable {other : Concrete → Option Code}
variable (hwhole : ∀ {c c'}, Alike .whole c c' → whole c = whole c')
variable (hstatements : ∀ {m c c'}, Alike m c c' → (m = .whole → c.form ≠ .call) →
  statements (c.apartFields m) c = statements (c.apartFields m) c')
variable (hother : ∀ {c c'}, Alike .whole c c' → c.apartFields .whole = [] → c.form ≠ .call →
  other c = other c')
variable {m : Manner} {t t' : Concrete}

include hstatements in
theorem body_alike (h : Alike .body t t') : statements [] t = statements [] t' :=
  hstatements h fun hm => by cases hm

include hwhole hstatements in
theorem readStatement_alike (h : Alike .whole t t') :
    readStatement whole statements t = readStatement whole statements t' := by
  rw [readStatement, readStatement, ← isBody_eq_of_label h.label_eq]
  cases hcase : t.isBody with
  | true =>
      rw [if_pos rfl, if_pos rfl]
      exact body_alike hstatements (h.body_of_whole (form_of_isBody hcase))
  | false =>
      rw [if_neg Bool.false_ne_true, if_neg Bool.false_ne_true, hwhole h]

include hwhole hstatements in
theorem mapM_readStatement_alike (h : Alike m t t') (hform : m = .whole → t.form ≠ .call) :
    (t.statements (t.apartFields m)).mapM (readStatement whole statements) =
      (t'.statements (t.apartFields m)).mapM (readStatement whole statements) :=
  Lists.mapM_eq_of_forall₂
    ((h.statements hform).imp fun _ _ => readStatement_alike hwhole hstatements)

include hstatements in
theorem readListed_alike {make make' : List Code → Code} (hmake : make = make')
    (h : Alike .whole t t') {apart : List String} (hapart : t.apartFields .whole = apart)
    (hform : t.form ≠ .call) :
    (statements apart t).map make = (statements apart t').map make' := by
  rw [← hapart, hstatements h fun _ => hform, hmake]

include hwhole in
theorem whole_alike {c c' : Concrete} (h : Alike .whole t t') {field : String}
    (hpart : field ∈ t.partFields .whole) (hfield : field ≠ "arguments")
    (hc : t.child? field = some c) (hc' : t'.child? field = some c') : whole c = whole c' := by
  rcases h.part hpart with ⟨hnone, _⟩ | ⟨d, d', index, hd, hd', hindex, halike⟩
  · rw [hnone] at hc
    cases hc
  · cases hc.symm.trans hd
    cases hc'.symm.trans hd'
    have hmanner : t.mannerAt .whole index = .whole :=
      if_neg fun harguments => hfield (field_unique hindex harguments.right.right)
    rw [hmanner] at halike
    exact hwhole halike

include hwhole in
theorem readOptional_alike (h : Alike .whole t t') {field : String}
    (hpart : field ∈ t.partFields .whole) (hfield : field ≠ "arguments") :
    readOptional whole (t.child? field) = readOptional whole (t'.child? field) := by
  rcases child?_cases_of_labels h.labels_eq field with ⟨hnone, hnone'⟩ | ⟨c, c', hc, hc', _⟩
  · rw [hnone, hnone']
  · rw [hc, hc', readOptional, readOptional, whole_alike hwhole h hpart hfield hc hc']

include hstatements in
theorem readArguments_alike (h : Alike .whole t t') (hform : t.form = .call) :
    readArguments statements (t.child? "arguments") =
      readArguments statements (t'.child? "arguments") := by
  have hpart : "arguments" ∈ t.partFields .whole := by
    rw [partFields, hform]
    simp
  rcases h.part hpart with ⟨hnone, hnone'⟩ | ⟨c, c', index, hc, hc', hindex, halike⟩
  · rw [hnone, hnone']
  · have hmanner : t.mannerAt .whole index = .body := if_pos ⟨rfl, hform, hindex⟩
    rw [hmanner] at halike
    rw [hc, hc', readArguments, readArguments, body_alike hstatements halike]

include hwhole hstatements in
theorem readCall_alike (h : Alike .whole t t') (hform : t.form = .call) :
    readCall source whole statements t = readCall source whole statements t' := by
  have hparts : t.partFields .whole = ["receiver", "arguments", "block"] := by
    rw [partFields, hform]
  have hcall : ofCall source t = ofCall source t' := by
    unfold ofCall
    rw [line_eq_of_label h.label_eq, callName?_eq_of_labels h.labels_eq]
  rw [readCall, readCall, readArguments_alike hstatements h hform,
    readOptional_alike hwhole h (by rw [hparts]; simp) (by decide : "receiver" ≠ "arguments"),
    readOptional_alike hwhole h (by rw [hparts]; simp) (by decide : "block" ≠ "arguments"), hcall]

include hwhole hother

theorem readAssignment_alike (h : Alike .whole t t') (hform : t.form = .assignment) :
    readAssignment source whole other t = readAssignment source whole other t' := by
  have hfallback : other t = other t' :=
    hother h (by rw [apartFields, hform]) (by rw [hform]; decide)
  rw [readAssignment, readAssignment]
  rcases child?_cases_of_labels h.labels_eq "left" with
    ⟨hleft, hleft'⟩ | ⟨left, left', hleft, hleft', hlabel⟩
  · rw [hleft, hleft']
    exact hfallback
  · rcases child?_cases_of_labels h.labels_eq "right" with
      ⟨hright, hright'⟩ | ⟨right, right', hright, hright', _⟩
    · rw [hleft, hleft', hright, hright']
      exact hfallback
    · rw [hleft, hleft', hright, hright']
      dsimp only
      rw [← isTarget_eq_of_label hlabel]
      by_cases htarget : left.isTarget
      · have hparts : t.partFields .whole = ["right"] := by
          have hplain : t.isPlainAssignment = true := by
            rw [isPlainAssignment, hleft, hright]
            exact htarget
          rw [partFields, hform]
          exact if_pos hplain
        have hvalue := whole_alike hwhole h (by rw [hparts]; simp)
          (by decide : "right" ≠ "arguments") hright hright'
        have hmake : ofAssignment source t left = ofAssignment source t' left' := by
          funext value
          rw [ofAssignment, ofAssignment, ofTarget, ofTarget, line_eq_of_label h.label_eq,
            line_eq_of_label hlabel, text_eq_of_label source hlabel]
        rw [if_pos htarget, if_pos htarget, hmake, hvalue]
      · rw [if_neg htarget, if_neg htarget]
        exact hfallback

omit hwhole in
theorem readLiteral_alike (kind : Kind) (h : Alike .whole t t')
    (hapart : t.apartFields .whole = []) (hform : t.form ≠ .call) :
    readLiteral source other kind t = readLiteral source other kind t' := by
  rw [readLiteral, readLiteral, ← literal?_eq_of_labels h.labels_eq, hother h hapart hform]
  cases t.literal? source with
  | none =>
      rfl
  | some value =>
      dsimp only
      rw [ofLiteral, ofLiteral, line_eq_of_label h.label_eq]

theorem readScoped_alike (h : Alike .whole t t') (hform : t.form = .scopePath) :
    readScoped source whole other t = readScoped source whole other t' := by
  have hfallback : other t = other t' :=
    hother h (by rw [apartFields, hform]) (by rw [hform]; decide)
  rw [readScoped, readScoped]
  rcases child?_cases_of_labels h.labels_eq "name" with
    ⟨hname, hname'⟩ | ⟨name, name', hname, hname', hlabel⟩
  · rw [hname, hname']
    exact hfallback
  · rw [hname, hname']
    dsimp only
    rw [← kind_eq_of_label hlabel]
    by_cases hconstant : (name.kind == "constant") = true
    · have hparts : t.partFields .whole = ["scope"] := by
        have hends : t.endsInConstant = true := by
          rw [endsInConstant, hname]
          exact hconstant
        rw [partFields, hform]
        exact if_pos hends
      have hmake : ofConstant t (name.text source) = ofConstant t' (name'.text source) := by
        funext scope
        rw [ofConstant, ofConstant, line_eq_of_label h.label_eq, text_eq_of_label source hlabel]
      rw [if_pos hconstant, if_pos hconstant, hmake,
        readOptional_alike hwhole h (by rw [hparts]; simp) (by decide : "scope" ≠ "arguments")]
    · rw [if_neg hconstant, if_neg hconstant]
      exact hfallback

include hstatements

theorem readForm_alike (h : Alike .whole t t') :
    readForm source whole statements other t = readForm source whole statements other t' := by
  have hlabel := h.label_eq
  have hline := line_eq_of_label hlabel
  have htext := text_eq_of_label source hlabel
  have hapart := apartFields.eq_2 t
  rw [readForm, readForm, ← form_eq_of_label hlabel]
  cases hform : t.form with
  | classDef =>
      rw [hform] at hapart
      refine readListed_alike hstatements ?_ h hapart (by rw [hform]; decide)
      have hname := map_child?_eq_of_labels h.labels_eq
        (fun heq => congrArg Naming.lastSegment (text_eq_of_label source heq)) "name"
      funext code
      rw [ofClass, ofClass, hline, hname]
  | methodDef =>
      rw [hform] at hapart
      refine readListed_alike hstatements ?_ h hapart (by rw [hform]; decide)
      have hname := map_child?_eq_of_labels h.labels_eq (text_eq_of_label source) "name"
      funext code
      rw [ofMethod, ofMethod, hline, hname]
  | call =>
      exact readCall_alike hwhole hstatements h hform
  | identifier =>
      dsimp only
      rw [ofIdentifier, ofIdentifier, hline, htext]
  | block =>
      rw [hform] at hapart
      refine readListed_alike hstatements ?_ h hapart (by rw [hform]; decide)
      funext code
      rw [ofBlock, ofBlock, hline]
  | assignment =>
      exact readAssignment_alike hwhole hother h hform
  | plainSymbol =>
      dsimp only
      rw [ofLiteral, ofLiteral, symbolText, symbolText, hline, htext]
  | quotedSymbol =>
      rw [hform] at hapart
      exact readLiteral_alike hother .symbolLiteral h hapart (by rw [hform]; decide)
  | string =>
      rw [hform] at hapart
      exact readLiteral_alike hother .stringLiteral h hapart (by rw [hform]; decide)
  | constant =>
      dsimp only
      rw [ofConstant, ofConstant, hline, htext]
  | scopePath =>
      exact readScoped_alike hwhole hother h hform
  | other =>
      rw [hform] at hapart
      exact hother h hapart (by rw [hform]; decide)

end Level

/-!
# Reading
-/

structure ReadsAlike (source : List UInt8) (stack : Stack) (room : Nat) : Prop where
  whole : ∀ {t t'}, Alike .whole t t' →
    readWhole source stack room t = readWhole source stack room t'
  own : ∀ {t t'}, Alike .whole t t' → readOwn source stack room t = readOwn source stack room t'
  other : ∀ {t t'}, Alike .whole t t' → t.apartFields .whole = [] → t.form ≠ .call →
    readOther source stack room t = readOther source stack room t'
  statements : ∀ {m t t'}, Alike m t t' → (m = .whole → t.form ≠ .call) →
    readStatements source stack room (t.apartFields m) t =
      readStatements source stack room (t.apartFields m) t'

theorem readsAlike (source : List UInt8) (stack : Stack) (room : Nat) :
    ReadsAlike source stack room := by
  induction room with
  | zero =>
      constructor
      · intro t t' _
        rw [readWhole, readWhole]
      · intro t t' _
        rw [readOwn, readOwn]
      · intro t t' _ _ _
        rw [readOther, readOther]
      · intro m t t' _ _
        rw [readStatements, readStatements]
  | succ room ih =>
      constructor
      · intro t t' h
        rw [readWhole, readWhole, ← form_eq_of_label h.label_eq]
        by_cases hform : t.form = .other
        · have hapart : t.apartFields .whole = [] := by
            rw [apartFields, hform]
          rw [if_pos hform, if_pos hform, ih.other h hapart (by rw [hform]; decide)]
        · rw [if_neg hform, if_neg hform, ih.own h]
      · intro t t' h
        rw [readOwn, readOwn, readForm_alike ih.whole ih.statements ih.other h]
      · intro t t' h hapart hform
        have hmake : ofOther t = ofOther t' := by
          funext code
          rw [ofOther, ofOther, line_eq_of_label h.label_eq]
        rw [readOther, readOther, readListed_alike ih.statements hmake h hapart hform]
      · intro m t t' h hform
        rw [readStatements, readStatements,
          mapM_readStatement_alike ih.whole ih.statements h hform]

theorem read_eq_of_alike (source : List UInt8) (stack : Stack) {t t' : Concrete}
    (h : Alike .whole t t') : read source stack t = read source stack t' :=
  (readsAlike source stack stack.room).whole h

def parameterKinds : List String :=
  ["method", "do_block", "block"]

theorem partFields_of_parameterKinds {t : Concrete} (h : t.kind ∈ parameterKinds) :
    t.partFields .whole = [] := by
  rw [partFields, form]
  simp only [parameterKinds, List.mem_cons, List.not_mem_nil, or_false] at h
  rcases h with h | h | h
  · rw [h]
    rfl
  · rw [h]
    rfl
  · rw [h]
    rfl

theorem alike_of_parameters {label list : Label} (before after content content' : List Concrete)
    (hkind : label.kind ∈ parameterKinds) (hlist : list.kind ∈ silentKinds) :
    Alike .whole ⟨label, before ++ ⟨list, content⟩ :: after⟩
      ⟨label, before ++ ⟨list, content'⟩ :: after⟩ := by
  refine Alike.of_child before after rfl fun hread => absurd ?_ hread
  refine ⟨Skips.silent hlist, ?_⟩
  intro field hfield
  rw [partFields_of_parameterKinds (by exact hkind)] at hfield
  cases hfield

/-- Trees that are alike are read as the same code, within any bound, so that the scans of both
find the same.  In particular the content of a parameter list has no part in whether a method or
the block of a task delegates. -/
theorem read_alike (source : List UInt8) {t t' : Concrete} (h : Alike .whole t t') :
    (∀ stack, read source stack t = read source stack t') ∧
    (t.label.flagged = false → ∀ stack path,
      Source.read stack path ⟨source, t⟩ = Source.read stack path ⟨source, t'⟩) ∧
    (∀ stack levels exclusions file,
      (read source stack t).map (idleActions? levels exclusions file) =
        (read source stack t').map (idleActions? levels exclusions file) ∧
      (read source stack t).map (idleTasks? levels exclusions file) =
        (read source stack t').map (idleTasks? levels exclusions file)) ∧
    ∀ (label list : Label) (before after content content' : List Concrete),
      label.kind ∈ parameterKinds → list.kind ∈ silentKinds → ∀ stack levels,
        (read source stack ⟨label, before ++ ⟨list, content⟩ :: after⟩).map
            (fun code => delegates? levels (some code)) =
          (read source stack ⟨label, before ++ ⟨list, content'⟩ :: after⟩).map
            fun code => delegates? levels (some code) := by
  have hread := fun stack => read_eq_of_alike source stack h
  refine ⟨hread, ?_, ?_, ?_⟩
  · intro hfits stack path
    have hfits' : t'.label.flagged = false := h.label_eq ▸ hfits
    rw [Source.read, Source.read]
    dsimp only
    rw [hfits, hfits', hread]
    rfl
  · intro stack levels exclusions file
    rw [hread]
    exact ⟨rfl, rfl⟩
  · intro label list before after content content' hkind hlist stack levels
    rw [read_eq_of_alike source stack
      (alike_of_parameters before after content content' hkind hlist)]

def withParameters (content : List Concrete) : Concrete :=
  let node kind field start stop row children : Concrete :=
    ⟨⟨kind, field, true, false, false, start, stop, row⟩, children⟩
  node "program" none 0 58 0 [
    node "class" none 0 57 0 [
      node "constant" (some "name") 6 17 0 [],
      node "body_statement" (some "body") 18 53 1 [
        node "method" none 18 53 1 [
          node "identifier" (some "name") 22 23 1 [],
          node "method_parameters" (some "parameters") 23 44 1 content,
          node "identifier" none 45 49 2 []]]]]

def usecaseDefault : Concrete :=
  let node kind field start stop children : Concrete :=
    ⟨⟨kind, field, true, false, false, start, stop, 1⟩, children⟩
  node "optional_parameter" none 24 43 [
    node "identifier" (some "name") 24 25 [],
    node "call" (some "value") 28 43 [
      node "constant" (some "receiver") 28 38 [],
      node "identifier" (some "method") 39 43 []]]

theorem alike_withParameters (content content' : List Concrete) :
    Alike .whole (withParameters content) (withParameters content') := by
  refine Alike.of_child [] [] rfl fun _ => ?_
  refine Alike.of_child [_] [] rfl fun _ => ?_
  refine Alike.of_child [] [] rfl fun _ => ?_
  exact alike_of_parameters [_] [_] content content' (by decide) (by decide)

/-- The call in the default value does not keep the action from being idle. -/
theorem read_alike_usecaseDefault :
    let source := Utf8.encode "class AController\ndef b(x = RunUsecase.call)\nshow\nend\nend\n"
    Alike .whole (withParameters [usecaseDefault]) (withParameters []) ∧
      (read source ⟨30, 3, 1⟩ (withParameters [usecaseDefault])).map
        (idleActions? 15 {} "a.rb") = some (some [⟨"a.rb", "b", some 2⟩]) := by
  intro source
  have halike := alike_withParameters [usecaseDefault] []
  have hempty : (read source ⟨30, 3, 1⟩ (withParameters [])).map (idleActions? 15 {} "a.rb") =
      some (some [⟨"a.rb", "b", some 2⟩]) := by
    decide +kernel
  have hscans := (read_alike source halike).right.right.left ⟨30, 3, 1⟩ 15 {} "a.rb"
  exact ⟨halike, hscans.left.trans hempty⟩

end Code
end UsecaseAudit
