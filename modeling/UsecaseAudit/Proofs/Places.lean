import UsecaseAudit.Discovery
import UsecaseAudit.Settings.File

/-!
# The places that paths give

A run is given paths, of a project and of its settings.  A path may begin at the home
folder of a user, and then it means a location as it is written.  What the disk has
there decides whether it is the root of a project, or which file the settings are
loaded from.  About a path that is too long the disk does not answer at all.
-/

namespace UsecaseAudit

/-!
# Computations that may fail
-/

section

variable {ε δ α β : Type}

theorem exists_of_bind_eq_ok {x : Except ε α} {f : α → Except ε β} {b : β}
    (h : (x >>= f) = .ok b) : ∃ a, x = .ok a ∧ f a = .ok b := by
  cases x with
  | error e => cases h
  | ok a => exact ⟨a, rfl, h⟩

theorem bind_eq_error_iff {x : Except ε α} {f : α → Except ε β} {e : ε} :
    (x >>= f) = .error e ↔ x = .error e ∨ ∃ a, x = .ok a ∧ f a = .error e := by
  cases x with
  | error other =>
      constructor
      · intro h
        cases h
        exact Or.inl rfl
      · rintro (h | ⟨a, ha, _⟩)
        · cases h
          rfl
        · cases ha
  | ok a =>
      constructor
      · intro h
        exact Or.inr ⟨a, rfl, h⟩
      · rintro (h | ⟨b, hb, h⟩)
        · cases h
        · cases hb
          exact h

theorem mapError_ok (f : ε → δ) (a : α) : (Except.ok a).mapError f = .ok a :=
  rfl

theorem mapError_error (f : ε → δ) (e : ε) :
    (Except.error e : Except ε α).mapError f = .error (f e) :=
  rfl

theorem eq_ok_of_mapError_eq_ok {x : Except ε α} {f : ε → δ} {a : α}
    (h : x.mapError f = .ok a) : x = .ok a := by
  cases x with
  | error e =>
      cases h
  | ok b =>
      cases h
      rfl

end

/-!
# Texts of paths
-/

namespace Path

theorem hasNull_append (a b : String) : hasNull (a ++ b) = (hasNull a || hasNull b) := by
  unfold hasNull
  rw [String.toList_append, List.contains_eq_mem, List.contains_eq_mem, List.contains_eq_mem,
    ← Bool.decide_or]
  simp only [List.mem_append]

theorem text_concat {anchor name : String} {above : List String} :
    text ⟨anchor, above ++ [name]⟩ = anchor ++ "/".intercalate (above ++ [name]) :=
  if_neg fun h => List.concat_ne_nil name above h.right

theorem hasNull_text_concat {anchor name : String} {above : List String}
    (hname : hasNull name = false) (h : hasNull (text ⟨anchor, above ++ [name]⟩) = true) :
    hasNull (text ⟨anchor, above⟩) = true := by
  rw [text_concat] at h
  by_cases hempty : above = []
  · rw [hempty, List.nil_append, String.intercalate_singleton, hasNull_append, hname,
      Bool.or_false] at h
    have hanchor : anchor ≠ "" := by
      rintro rfl
      cases h
    rw [hempty, text, if_neg fun hboth => hanchor hboth.left, hasNull_append, h]
    rfl
  · have hslash : hasNull "/" = false := by decide
    rw [String.intercalate_append_of_ne_nil hempty (List.cons_ne_nil name []),
      String.intercalate_singleton, hasNull_append, hasNull_append, hasNull_append, hname, hslash,
      Bool.or_false, Bool.or_false] at h
    rw [text, if_neg fun hboth => hempty hboth.right, hasNull_append]
    exact h

theorem hasNull_text_append {anchor : String} {done more : List String}
    (hdone : hasNull (text ⟨anchor, done⟩) = false) (hmore : ∀ name ∈ more, hasNull name = false) :
    hasNull (text ⟨anchor, done ++ more⟩) = false := by
  induction more generalizing done with
  | nil =>
      rw [List.append_nil]
      exact hdone
  | cons name rest ih =>
      rcases List.forall_mem_cons.mp hmore with ⟨hname, hrest⟩
      rw [← List.singleton_append, ← List.append_assoc]
      refine ih ?_ hrest
      rw [Bool.eq_false_iff]
      intro hnull
      exact Bool.false_ne_true (hdone.symm.trans (hasNull_text_concat hname hnull))

theorem join_fileName (p : Path) :
    p.join (ofText Starter.fileName) = ⟨p.anchor, p.parts ++ [Starter.fileName]⟩ := by
  have hname : ofText Starter.fileName = ⟨"", [Starter.fileName]⟩ := by decide +kernel
  rw [hname]
  rfl

theorem hasNull_join_fileName {p : Path} (h : hasNull p.text = false) :
    hasNull (p.join (ofText Starter.fileName)).text = false := by
  rw [join_fileName]
  exact hasNull_text_append h (by decide +kernel)

theorem text_ofLocation (place : Location) :
    (ofLocation place).text = "/" ++ "/".intercalate place := by
  simp [text, ofLocation]

theorem exists_intercalate_append (done more : List String) :
    ∃ rest, "/".intercalate (done ++ more) = "/".intercalate done ++ rest := by
  by_cases hdone : done = []
  · rw [hdone]
    refine ⟨"/".intercalate more, ?_⟩
    rw [List.nil_append, String.intercalate_nil, String.empty_append]
  · by_cases hmore : more = []
    · rw [hmore]
      exact ⟨"", by rw [List.append_nil, String.append_empty]⟩
    · refine ⟨"/" ++ "/".intercalate more, ?_⟩
      rw [String.intercalate_append_of_ne_nil hdone hmore, String.append_assoc]

end Path

namespace Disk

theorem refusal?_eq_none_iff {text : String} :
    refusal? text = none ↔ Path.hasNull text = false ∧ text.utf8ByteSize ≤ longestPath := by
  unfold refusal?
  cases Path.hasNull text with
  | true =>
      simp
  | false =>
      simp

theorem refusal?_of_append {a b : String} (h : refusal? (a ++ b) = none) : refusal? a = none := by
  rw [refusal?_eq_none_iff, Path.hasNull_append, Bool.or_eq_false_iff,
    String.utf8ByteSize_append] at h
  rw [refusal?_eq_none_iff]
  exact ⟨h.left.left, Nat.le_trans (Nat.le_add_right _ _) h.right⟩

theorem refusal?_text_on_way {anchor : String} {done parts : List String} (hway : done <+: parts)
    (h : refusal? (Path.text ⟨anchor, parts⟩) = none) :
    refusal? (Path.text ⟨anchor, done⟩) = none := by
  rcases hway with ⟨more, rfl⟩
  unfold Path.text at h ⊢
  by_cases hdot : anchor = "" ∧ done = []
  · rw [if_pos hdot]
    decide
  · have hlong : ¬ (anchor = "" ∧ done ++ more = []) := fun hboth =>
      hdot ⟨hboth.left, (List.append_eq_nil_iff.mp hboth.right).left⟩
    rcases Path.exists_intercalate_append done more with ⟨rest, hrest⟩
    rw [if_neg hlong] at h
    dsimp only at h
    rw [hrest, ← String.append_assoc] at h
    rw [if_neg hdot]
    exact refusal?_of_append h

end Disk

/-!
# Asking about a path
-/

namespace Disk

/-- A path of which a name or the whole is too long for the disk to answer. -/
def findsTooLong (d : Disk) (p : Path) : Bool :=
  match d.lookup p with
  | .error .nameTooLong => true
  | _ => false

def answer (d : Disk) (question : Entry → Bool) (p : Path) : Bool :=
  match d.lookup p with
  | .ok entry => question entry
  | .error _ => false

def Lacks (d : Disk) (p : Path) : Prop :=
  ∃ fault, fault ≠ .nameTooLong ∧ d.lookup p = .error fault

def meant (d : Disk) (p : Path) : Location :=
  p.parts.foldl resolveStep (d.start p)

section

variable {d : Disk} {p : Path}

theorem asks_eq (d : Disk) (question : Entry → Bool) (p : Path) :
    d.asks question p =
      if d.findsTooLong p then .error ⟨.nameTooLong, p.text⟩ else .ok (d.answer question p) := by
  unfold asks findsTooLong answer
  cases d.lookup p with
  | ok entry =>
      rfl
  | error fault =>
      cases fault with
      | nameTooLong => rfl
      | _ => rfl

theorem findsTooLong_iff : d.findsTooLong p = true ↔ d.lookup p = .error .nameTooLong := by
  unfold findsTooLong
  constructor
  · intro h
    split at h
    · assumption
    · cases h
  · intro h
    rw [h]

theorem lookup_cases (d : Disk) (p : Path) :
    (∃ entry, d.lookup p = .ok entry) ∨ d.Lacks p ∨ d.findsTooLong p = true := by
  cases hlookup : d.lookup p with
  | ok entry =>
      exact Or.inl ⟨entry, rfl⟩
  | error fault =>
      by_cases hlong : fault = .nameTooLong
      · exact Or.inr (Or.inr (findsTooLong_iff.mpr (hlong ▸ hlookup)))
      · exact Or.inr (Or.inl ⟨fault, hlong, hlookup⟩)

theorem lacks_of_hasNull (h : Path.hasNull p.text = true) : d.Lacks p := by
  refine ⟨.nullCharacter, by decide, ?_⟩
  rw [lookup, refusal?, if_pos h]

theorem asks_of_lookup {entry : Entry} (h : d.lookup p = .ok entry) (question : Entry → Bool) :
    d.asks question p = .ok (question entry) := by
  rw [asks, h]

theorem asks_of_lacks (h : d.Lacks p) (question : Entry → Bool) :
    d.asks question p = .ok false := by
  rcases h with ⟨fault, hlong, hlookup⟩
  rw [asks, hlookup]
  cases fault with
  | nameTooLong => exact absurd rfl hlong
  | _ => rfl

theorem asks_of_tooLong (h : d.findsTooLong p = true) (question : Entry → Bool) :
    d.asks question p = .error ⟨.nameTooLong, p.text⟩ := by
  rw [asks_eq, if_pos h]

theorem lacks_of_isPresent (h : d.isPresent p = .ok false) : d.Lacks p := by
  rcases d.lookup_cases p with ⟨entry, hentry⟩ | hlacks | hlong
  · rw [isPresent, asks_of_lookup hentry] at h
    cases h
  · exact hlacks
  · rw [isPresent, asks_of_tooLong hlong] at h
    cases h

theorem read_eq_ok_iff {file : File} :
    d.read p = .ok file ↔ d.lookup p = .ok (.file file) ∧ d.host.denial p.text = none := by
  unfold read
  cases d.lookup p with
  | error fault =>
      simp
  | ok entry =>
      cases entry with
      | folder entries =>
          simp
      | file content =>
          cases d.host.denial p.text with
          | none => simp
          | some denial => simp

theorem isFolder_eq_true_iff :
    d.isFolder p = .ok true ↔ ∃ entries, d.lookup p = .ok (.folder entries) := by
  rcases d.lookup_cases p with ⟨entry, hentry⟩ | hlacks | hlong
  · rw [isFolder, asks_of_lookup hentry, hentry]
    cases entry with
    | file content => simp [Entry.isFolder]
    | folder entries => simp [Entry.isFolder]
  · rw [isFolder, asks_of_lacks hlacks]
    rcases hlacks with ⟨fault, _, hfault⟩
    simp [hfault]
  · rw [isFolder, asks_of_tooLong hlong, findsTooLong_iff.mp hlong]
    simp

theorem resolve_of_clean (h : Path.hasNull p.text = false) : d.resolve p = .ok (d.meant p) := by
  rw [resolve, h]
  rfl

end

end Disk

def Failure.tooLong (p : Path) : Failure :=
  .system ⟨.nameTooLong, p.text⟩

def Failure.nullIn (p : Path) : Failure :=
  .system ⟨.nullCharacter, p.text⟩

/-!
# Home folders
-/

theorem Path.eq_of_atHome? {p q : Path} {home : String} (h : p.atHome? home = some q) :
    q = ⟨(ofText (homeFolder home)).anchor,
      (ofText (homeFolder home)).parts ++ p.parts.tail⟩ := by
  unfold atHome? at h
  split at h
  · cases h
  · exact (Option.some.inj h).symm

namespace Host

/-- A path stands for itself, or begins at the home folder of a user and stands for what is there. -/
inductive Expands (host : Host) (p : Path) : Path → Prop where
  | plain : p.user? = none → Expands host p p
  | home {name home : String} {q : Path} :
      p.user? = some name → Path.hasNull name = false → host.homes name = some home →
      p.atHome? home = some q → Expands host p q

/-- A path stands for one that the disk can be asked about. -/
structure Admits (host : Host) (p q : Path) : Prop where
  expands : host.Expands p q
  clean : Path.hasNull q.text = false

/-- What can be wrong with a path, whatever is on the disk. -/
inductive Refuses (host : Host) (p : Path) : Failure → Prop where
  | nullUser {name : String} :
      p.user? = some name → Path.hasNull name = true → Refuses host p (.nullIn p)
  | homeless {name : String} :
      p.user? = some name → Path.hasNull name = false →
      (∀ home, host.homes name = some home → p.atHome? home = none) → Refuses host p .homeUnknown
  | null {q : Path} :
      host.Expands p q → Path.hasNull q.text = true → Refuses host p (.nullIn q)

section

variable {host : Host} {p q : Path}

theorem expandHome_of_expands (h : host.Expands p q) : expandHome host p = .ok q := by
  unfold expandHome
  cases h with
  | plain huser =>
      rw [huser]
  | home huser hnull hhome hq =>
      rw [huser]
      dsimp only
      rw [if_neg (Bool.eq_false_iff.mp hnull), hhome, Option.bind_some, hq]

theorem expands_or_expandHome_error (host : Host) (p : Path) :
    (∃ q, host.Expands p q) ∨
      ∃ failure, host.Refuses p failure ∧ expandHome host p = .error failure := by
  cases huser : p.user? with
  | none =>
      exact Or.inl ⟨p, .plain huser⟩
  | some name =>
      cases hnull : Path.hasNull name with
      | true =>
          refine Or.inr ⟨_, .nullUser huser hnull, ?_⟩
          unfold expandHome
          rw [huser]
          exact if_pos hnull
      | false =>
          cases hhome : (host.homes name).bind p.atHome? with
          | some q =>
              rcases Option.bind_eq_some_iff.mp hhome with ⟨home, hname, hq⟩
              exact Or.inl ⟨q, .home huser hnull hname hq⟩
          | none =>
              refine Or.inr ⟨_, .homeless huser hnull (Option.bind_eq_none_iff.mp hhome), ?_⟩
              unfold expandHome
              rw [huser]
              dsimp only
              rw [if_neg (Bool.eq_false_iff.mp hnull), hhome]

theorem expands_of_expandHome (h : expandHome host p = .ok q) : host.Expands p q := by
  rcases expands_or_expandHome_error host p with ⟨other, hother⟩ | ⟨failure, _, hfailure⟩
  · cases h.symm.trans (expandHome_of_expands hother)
    exact hother
  · cases h.symm.trans hfailure

theorem Refuses.cases {failure : Failure} (h : host.Refuses p failure) :
    expandHome host p = .error failure ∨
      ∃ q, host.Expands p q ∧ Path.hasNull q.text = true ∧ failure = .nullIn q := by
  cases h with
  | null hexpands hnull =>
      exact Or.inr ⟨_, hexpands, hnull, rfl⟩
  | nullUser huser hnull =>
      left
      unfold expandHome
      rw [huser]
      exact if_pos hnull
  | homeless huser hnull hhome =>
      left
      unfold expandHome
      rw [huser]
      dsimp only
      rw [if_neg (Bool.eq_false_iff.mp hnull), Option.bind_eq_none_iff.mpr hhome]

theorem refuses_or_admits (host : Host) (p : Path) :
    (∃ failure, host.Refuses p failure) ∨ ∃ q, host.Admits p q := by
  rcases expands_or_expandHome_error host p with ⟨q, hq⟩ | ⟨failure, hrefuses, _⟩
  · cases hnull : Path.hasNull q.text with
    | true => exact Or.inl ⟨_, .null hq hnull⟩
    | false => exact Or.inr ⟨q, hq, hnull⟩
  · exact Or.inl ⟨failure, hrefuses⟩

end

end Host

theorem Disk.resolve_of_hasNull {d : Disk} {p : Path} (h : Path.hasNull p.text = true) :
    (d.resolve p).mapError Failure.system = .error (.nullIn p) := by
  rw [resolve, if_pos h]
  rfl

/-!
# The root of a project
-/

namespace Discovery

def RootPath (disk : Disk) (text : String) (p : Path) : Prop :=
  ∃ q, disk.host.Admits (Path.ofText text) q ∧ p = Path.ofLocation (disk.meant q)

inductive RootFails (disk : Disk) (text : String) : Failure → Prop where
  | refused {failure : Failure} :
      disk.host.Refuses (Path.ofText text) failure → RootFails disk text failure
  | tooLong {p : Path} :
      RootPath disk text p → disk.findsTooLong p = true → RootFails disk text (.tooLong p)
  | missing {p : Path} :
      RootPath disk text p → disk.Lacks p → RootFails disk text (.rootMissing text)
  | notFolder {p : Path} {content : File} :
      RootPath disk text p → disk.lookup p = .ok (.file content) →
      RootFails disk text (.rootNotFolder text)

/-- The root of a project is the folder at the location that its path means. -/
structure IsRoot (disk : Disk) (text : String) (root : Location) : Prop where
  place : ∃ q, disk.host.Admits (Path.ofText text) q ∧ disk.meant q = root
  folder : ∃ entries, disk.lookup (Path.ofLocation root) = .ok (.folder entries)

section

variable {disk : Disk} {text : String}

theorem rootOf_of_admits {q : Path} (h : disk.host.Admits (Path.ofText text) q) :
    rootOf disk text =
      ((disk.isPresent (Path.ofLocation (disk.meant q))).mapError Failure.system).bind
        fun present =>
          if present then
            ((disk.isFolder (Path.ofLocation (disk.meant q))).mapError Failure.system).bind
              fun folder =>
                if folder then .ok (disk.meant q) else .error (.rootNotFolder text)
          else .error (.rootMissing text) := by
  simp only [rootOf, Host.expandHome_of_expands h.expands, Disk.resolve_of_clean h.clean,
    mapError_ok, bind, Except.bind]
  cases disk.isPresent (Path.ofLocation (disk.meant q)) with
  | error e =>
      rfl
  | ok present =>
      cases present with
      | false =>
          rfl
      | true =>
          cases disk.isFolder (Path.ofLocation (disk.meant q)) with
          | error e =>
              rfl
          | ok folder =>
              cases folder with
              | false => rfl
              | true => rfl

theorem rootOf_of_rootFails {failure : Failure} (h : RootFails disk text failure) :
    rootOf disk text = .error failure := by
  cases h with
  | refused hrefuses =>
      unfold rootOf
      rcases hrefuses.cases with hhome | ⟨q, hexpands, hnull, rfl⟩
      · rw [hhome]
        rfl
      · rw [Host.expandHome_of_expands hexpands]
        dsimp only [bind, Except.bind]
        rw [Disk.resolve_of_hasNull hnull]
  | tooLong hpath hlong =>
      rcases hpath with ⟨q, hadmits, rfl⟩
      rw [rootOf_of_admits hadmits, Disk.isPresent, Disk.asks_of_tooLong hlong]
      rfl
  | missing hpath hlacks =>
      rcases hpath with ⟨q, hadmits, rfl⟩
      rw [rootOf_of_admits hadmits, Disk.isPresent, Disk.asks_of_lacks hlacks]
      rfl
  | notFolder hpath hfile =>
      rcases hpath with ⟨q, hadmits, rfl⟩
      rw [rootOf_of_admits hadmits, Disk.isPresent, Disk.asks_of_lookup hfile, Disk.isFolder,
        Disk.asks_of_lookup hfile]
      rfl

theorem rootOf_of_isRoot {root : Location} (h : IsRoot disk text root) :
    rootOf disk text = .ok root := by
  rcases h with ⟨⟨q, hadmits, rfl⟩, entries, hfolder⟩
  rw [rootOf_of_admits hadmits, Disk.isPresent, Disk.asks_of_lookup hfolder, Disk.isFolder,
    Disk.asks_of_lookup hfolder]
  rfl

theorem rootFails_or_isRoot (disk : Disk) (text : String) :
    (∃ failure, RootFails disk text failure) ∨ ∃ root, IsRoot disk text root := by
  rcases disk.host.refuses_or_admits (Path.ofText text) with ⟨failure, hrefuses⟩ | ⟨q, hadmits⟩
  · exact Or.inl ⟨failure, .refused hrefuses⟩
  · have hpath : RootPath disk text (Path.ofLocation (disk.meant q)) := ⟨q, hadmits, rfl⟩
    rcases disk.lookup_cases (Path.ofLocation (disk.meant q)) with
      ⟨entry, hentry⟩ | hlacks | hlong
    · cases entry with
      | file content => exact Or.inl ⟨_, .notFolder hpath hentry⟩
      | folder entries => exact Or.inr ⟨_, ⟨q, hadmits, rfl⟩, entries, hentry⟩
    · exact Or.inl ⟨_, .missing hpath hlacks⟩
    · exact Or.inl ⟨_, .tooLong hpath hlong⟩

theorem rootOf_eq_ok_iff {root : Location} :
    rootOf disk text = .ok root ↔ IsRoot disk text root := by
  refine ⟨?_, rootOf_of_isRoot⟩
  intro h
  rcases rootFails_or_isRoot disk text with ⟨failure, hfails⟩ | ⟨other, hother⟩
  · cases h.symm.trans (rootOf_of_rootFails hfails)
  · cases h.symm.trans (rootOf_of_isRoot hother)
    exact hother

end

end Discovery

/-!
# The settings of a project
-/

namespace LoadedSettings

/-- The settings file that a path means: what it leads to, or the file of the usual name in the
folder that it leads to. -/
inductive Means (disk : Disk) (path : Path) : Location → Prop where
  | inside {q : Path} {entries : List (String × Entry)} :
      disk.host.Admits path q → disk.lookup q = .ok (.folder entries) →
      Means disk path (disk.meant (q.join (Path.ofText Starter.fileName)))
  | file {q : Path} {content : File} :
      disk.host.Admits path q → disk.lookup q = .ok (.file content) →
      Means disk path (disk.meant q)
  | nothing {q : Path} :
      disk.host.Admits path q → disk.Lacks q → Means disk path (disk.meant q)

/-- The disk is asked about the path of settings, and about the file that it means. -/
inductive Asks (disk : Disk) (path : Path) : Path → Prop where
  | path {q : Path} : disk.host.Admits path q → Asks disk path q
  | file {place : Location} : Means disk path place → Asks disk path (Path.ofLocation place)

section

variable {disk : Disk} {path : Path} {place : Location}

theorem locate_of_admits {q : Path} (h : disk.host.Admits path q) :
    locate disk path =
      ((disk.isFolder q).mapError Failure.system).bind fun inside =>
        .ok (disk.meant (if inside then q.join (Path.ofText Starter.fileName) else q)) := by
  simp only [locate, Host.expandHome_of_expands h.expands, bind, Except.bind]
  cases disk.isFolder q with
  | error e =>
      rfl
  | ok inside =>
      dsimp only [mapError_ok]
      cases inside with
      | true =>
          rw [if_pos rfl, Disk.resolve_of_clean (Path.hasNull_join_fileName h.clean), mapError_ok]
      | false =>
          rw [if_neg Bool.false_ne_true, Disk.resolve_of_clean h.clean, mapError_ok]

theorem locate_of_means (h : Means disk path place) : locate disk path = .ok place := by
  cases h with
  | inside hadmits hfolder =>
      rw [locate_of_admits hadmits, Disk.isFolder, Disk.asks_of_lookup hfolder]
      rfl
  | file hadmits hfile =>
      rw [locate_of_admits hadmits, Disk.isFolder, Disk.asks_of_lookup hfile]
      rfl
  | nothing hadmits hlacks =>
      rw [locate_of_admits hadmits, Disk.isFolder, Disk.asks_of_lacks hlacks]
      rfl

theorem locate_of_refuses {failure : Failure} (h : disk.host.Refuses path failure) :
    locate disk path = .error failure := by
  unfold locate
  rcases h.cases with hhome | ⟨q, hexpands, hnull, rfl⟩
  · rw [hhome]
    rfl
  · rw [Host.expandHome_of_expands hexpands]
    dsimp only [bind, Except.bind]
    rw [Disk.isFolder, Disk.asks_of_lacks (Disk.lacks_of_hasNull hnull)]
    exact Disk.resolve_of_hasNull hnull

theorem locate_of_tooLong {q : Path} (hadmits : disk.host.Admits path q)
    (h : disk.findsTooLong q = true) : locate disk path = .error (.tooLong q) := by
  rw [locate_of_admits hadmits, Disk.isFolder, Disk.asks_of_tooLong h]
  rfl

/-- A path is refused or too long, or it means a settings file. -/
theorem refuses_or_means (disk : Disk) (path : Path) :
    (∃ failure, disk.host.Refuses path failure) ∨
      (∃ q, disk.host.Admits path q ∧ disk.findsTooLong q = true) ∨
      ∃ place, Means disk path place := by
  rcases disk.host.refuses_or_admits path with hrefuses | ⟨q, hadmits⟩
  · exact Or.inl hrefuses
  · rcases disk.lookup_cases q with ⟨entry, hentry⟩ | hlacks | hlong
    · cases entry with
      | file content => exact Or.inr (Or.inr ⟨_, .file hadmits hentry⟩)
      | folder entries => exact Or.inr (Or.inr ⟨_, .inside hadmits hentry⟩)
    · exact Or.inr (Or.inr ⟨_, .nothing hadmits hlacks⟩)
    · exact Or.inr (Or.inl ⟨q, hadmits, hlong⟩)

theorem locate_eq_ok_iff : locate disk path = .ok place ↔ Means disk path place := by
  refine ⟨?_, locate_of_means⟩
  intro h
  rcases refuses_or_means disk path with
    ⟨failure, hrefuses⟩ | ⟨q, hadmits, hlong⟩ | ⟨other, hother⟩
  · cases h.symm.trans (locate_of_refuses hrefuses)
  · cases h.symm.trans (locate_of_tooLong hadmits hlong)
  · cases h.symm.trans (locate_of_means hother)
    exact hother

theorem load_of_means (h : Means disk path place) :
    load disk path =
      ((disk.isPresent (Path.ofLocation place)).mapError Failure.system).bind fun present =>
        if present then
          (ofFile disk place).bind fun settings =>
            .ok { settings := settings, source := some place }
        else .ok {} := by
  unfold load
  rw [locate_of_means h]
  rfl

theorem load_of_tooLong {p : Path} (hasks : Asks disk path p)
    (h : disk.findsTooLong p = true) : load disk path = .error (.tooLong p) := by
  cases hasks with
  | path hadmits =>
      unfold load
      rw [locate_of_tooLong hadmits h]
      rfl
  | file hmeans =>
      rw [load_of_means hmeans, Disk.isPresent, Disk.asks_of_tooLong h]
      rfl

theorem ofFile_of_unread {e : SystemError}
    (h : disk.read (Path.ofLocation place) = .error e) :
    ofFile disk place =
      .error (.settings (.unreadable (Path.ofLocation place).text e.message)) := by
  simp only [ofFile, h, bind, Except.bind]

theorem ofFile_of_notText {file : File} {fault : Utf8.Fault}
    (hread : disk.read (Path.ofLocation place) = .ok file)
    (h : Utf8.decode file.bytes = .error fault) :
    ofFile disk place =
      .error (.settings (.unreadable (Path.ofLocation place).text fault.message)) := by
  simp only [ofFile, hread, h, bind, Except.bind]

theorem ofFile_of_text {file : File} {text : String}
    (hread : disk.read (Path.ofLocation place) = .ok file)
    (htext : Utf8.decode file.bytes = .ok text) :
    ofFile disk place =
      (documentOf disk.host (place.getLast?.getD "") text).bind fun document =>
        ((Settings.ofDocument? document).mapError Failure.number).bind fun settings? =>
          settings?.elim (.error (.settings (.notMapping (place.getLast?.getD "")))) .ok := by
  simp only [ofFile, hread, htext, bind, Except.bind]
  cases documentOf disk.host (place.getLast?.getD "") text with
  | error e =>
      rfl
  | ok document =>
      dsimp only
      cases Settings.ofDocument? document with
      | error e =>
          rfl
      | ok settings? =>
          cases settings? with
          | none => rfl
          | some settings => rfl

end

end LoadedSettings
end UsecaseAudit
