import Mathlib.Data.List.Forall2
import Mathlib.Data.List.Nodup
import Mathlib.Data.List.Sort
import UsecaseAudit.Text.Split

/-!
# Lists

Facts about lists that several parts of the theory use: what becomes of a list that
is filtered and mapped, of items that are numbered and of items that are kept once.
The pieces of a text are those of its list of characters.
-/

namespace UsecaseAudit
namespace Lists

/-!
# Filtering and mapping
-/

theorem flatMap_filter {α β : Type} (p : α → Bool) (f : α → List β) (items : List α) :
    (items.filter p).flatMap f = items.flatMap fun a => if p a then f a else [] := by
  induction items with
  | nil => rfl
  | cons a rest ih =>
      by_cases ha : p a
      · rw [List.filter_cons_of_pos ha, List.flatMap_cons, List.flatMap_cons, if_pos ha, ih]
      · rw [List.filter_cons_of_neg ha, List.flatMap_cons, if_neg ha, ih, List.nil_append]

theorem forall₂_filter {α : Type} {r q : α → α → Prop} {p : α → Bool} {l l' : List α}
    (h : List.Forall₂ r l l') (hp : ∀ a b, r a b → p a = p b)
    (hq : ∀ a b, r a b → p a = true → q a b) :
    List.Forall₂ q (l.filter p) (l'.filter p) := by
  induction h with
  | nil =>
      exact List.Forall₂.nil
  | @cons a b l l' hab _ ih =>
      cases hkeep : p a with
      | true =>
          rw [List.filter_cons_of_pos hkeep,
            List.filter_cons_of_pos ((hp a b hab).symm.trans hkeep)]
          exact List.Forall₂.cons (hq a b hab hkeep) ih
      | false =>
          have hdrop := (hp a b hab).symm.trans hkeep
          rw [List.filter_cons_of_neg (by rw [hkeep]; decide),
            List.filter_cons_of_neg (by rw [hdrop]; decide)]
          exact ih

theorem forall₂_flatMap {α β γ : Type} {r : β → γ → Prop} {f : α → List β} {g : α → List γ}
    {l : List α} (h : ∀ a ∈ l, List.Forall₂ r (f a) (g a)) :
    List.Forall₂ r (l.flatMap f) (l.flatMap g) := by
  induction l with
  | nil =>
      exact List.Forall₂.nil
  | cons a l ih =>
      rcases List.forall_mem_cons.mp h with ⟨hfirst, hrest⟩
      exact List.rel_append hfirst (ih hrest)

/-!
# Mapping that may fail
-/

theorem mapM_eq_some_map {α β : Type} {f : α → Option β} {g : α → β} {l : List α}
    (h : ∀ a ∈ l, f a = some (g a)) : l.mapM f = some (l.map g) := by
  induction l with
  | nil =>
      rfl
  | cons a l ih =>
      rw [List.mapM_cons, h a List.mem_cons_self, ih fun b hb => h b (List.mem_cons_of_mem _ hb)]
      rfl

theorem mapM_ite_some {α β : Type} {p : α → Prop} [DecidablePred p] {f : α → Option β}
    {g : α → β} (l : List α) (h : ∀ x ∈ l, f x = if p x then some (g x) else none) :
    l.mapM f = if ∀ x ∈ l, p x then some (l.map g) else none := by
  induction l with
  | nil =>
      simp
  | cons x l ih =>
      have hrest := ih fun y hy => h y (List.mem_cons_of_mem _ hy)
      rw [List.mapM_cons, h x List.mem_cons_self, hrest]
      by_cases hx : p x
      · by_cases hl : ∀ y ∈ l, p y
        · rw [if_pos hx, if_pos hl, if_pos (List.forall_mem_cons.mpr ⟨hx, hl⟩)]
          rfl
        · rw [if_pos hx, if_neg hl, if_neg fun hall => hl (List.forall_mem_cons.mp hall).right]
          rfl
      · rw [if_neg hx, if_neg fun hall => hx (List.forall_mem_cons.mp hall).left]
        rfl

theorem mapM_eq_of_forall₂ {α β : Type} {f : α → Option β} {l l' : List α}
    (h : List.Forall₂ (fun a b => f a = f b) l l') : l.mapM f = l'.mapM f := by
  induction h with
  | nil =>
      rfl
  | cons hfirst _ ih =>
      rw [List.mapM_cons, List.mapM_cons, hfirst, ih]

/-!
# Numbered items
-/

theorem pairwise_index_zipIdx {α : Type} (items : List α) :
    items.zipIdx.Pairwise fun a b => a.2 < b.2 := by
  have hrange : (items.zipIdx.map Prod.snd).Pairwise (· < ·) := by
    rw [List.zipIdx_map_snd]
    exact List.pairwise_lt_range'
  exact List.pairwise_map.mp hrange

theorem sublist_zipIdx {α : Type} {items : List α} {l : List (α × Nat)}
    (hindex : l.Pairwise fun a b => a.2 < b.2) (hmem : ∀ c ∈ l, items[c.2]? = some c.1) :
    l.Sublist items.zipIdx := by
  have hantisymm : Std.Antisymm fun a b : α × Nat => a.2 < b.2 :=
    ⟨fun a b hab hba => absurd (Nat.lt_trans hab hba) (Nat.lt_irrefl a.2)⟩
  have hnodup : l.Nodup := by
    refine hindex.imp ?_
    rintro a b hlt rfl
    exact Nat.lt_irrefl a.2 hlt
  have hsubset : l ⊆ items.zipIdx := fun c hc => List.mem_zipIdx_iff_getElem?.mpr (hmem c hc)
  exact List.sublist_of_subperm_of_pairwise (List.subperm_of_subset hnodup hsubset) hindex
    (pairwise_index_zipIdx items)

/-!
# Items kept once
-/

theorem sublist_eraseDupsBy {α : Type} (r : α → α → Bool) (l : List α) :
    (l.eraseDupsBy r).Sublist l := by
  match l with
  | [] =>
      exact List.Sublist.refl []
  | a :: rest =>
      rw [List.eraseDupsBy_cons]
      exact ((sublist_eraseDupsBy r _).trans List.filter_sublist).cons_cons a
termination_by l.length
decreasing_by
  exact Nat.lt_succ_of_le (List.length_filter_le _ rest)

theorem nodup_map_eraseDupsBy {α : Type} (key : α → String) (l : List α) :
    ((l.eraseDupsBy fun a b => key a == key b).map key).Nodup := by
  match l with
  | [] =>
      exact List.nodup_nil
  | a :: rest =>
      rw [List.eraseDupsBy_cons, List.map_cons, List.nodup_cons]
      refine ⟨?_, nodup_map_eraseDupsBy key _⟩
      intro hmem
      rcases List.mem_map.mp hmem with ⟨b, hb, hkey⟩
      have hfilter := (sublist_eraseDupsBy _ _).subset hb
      have hdiffers := of_decide_eq_true (List.mem_filter.mp hfilter).right
      rw [hkey, beq_self_eq_true] at hdiffers
      cases hdiffers
termination_by l.length
decreasing_by
  exact Nat.lt_succ_of_le (List.length_filter_le _ rest)

theorem exists_mem_eraseDupsBy {α : Type} (key : α → String) {l : List α} {a : α} (h : a ∈ l) :
    ∃ b ∈ l.eraseDupsBy fun a b => key a == key b, key b = key a := by
  match l with
  | [] =>
      cases h
  | first :: rest =>
      rw [List.eraseDupsBy_cons]
      by_cases hkey : key first = key a
      · exact ⟨first, List.mem_cons_self, hkey⟩
      · have hrest : a ∈ rest := by
          rcases List.mem_cons.mp h with rfl | hrest
          · exact absurd rfl hkey
          · exact hrest
        have hkept : a ∈ rest.filter fun b => decide ((key b == key first) = false) := by
          refine List.mem_filter.mpr ⟨hrest, decide_eq_true (beq_eq_false_iff_ne.mpr ?_)⟩
          exact fun heq => hkey heq.symm
        rcases exists_mem_eraseDupsBy key hkept with ⟨b, hb, hb'⟩
        exact ⟨b, List.mem_cons_of_mem _ hb, hb'⟩
termination_by l.length
decreasing_by
  exact Nat.lt_succ_of_le (List.length_filter_le _ rest)

end Lists

/-!
# Pieces of a text
-/

namespace Split

theorem modifyHead_nil_append (pieces : List (List Char)) :
    pieces.modifyHead (([] : List Char).reverse ++ ·) = pieces := by
  cases pieces with
  | nil => rfl
  | cons piece rest => rfl

theorem piecesFrom_eq (mark : Char) (current cs : List Char) :
    piecesFrom mark current cs = (cs.splitOn mark).modifyHead (current.reverse ++ ·) := by
  induction cs generalizing current with
  | nil =>
      simp [piecesFrom]
  | cons c cs ih =>
      rw [piecesFrom, List.splitOn_cons_eq_if_modifyHead]
      by_cases hc : c = mark
      · rw [if_pos hc, ih, if_pos (beq_iff_eq.mpr hc), modifyHead_nil_append]
        simp
      · rw [if_neg hc, ih, if_neg (fun h => hc (beq_iff_eq.mp h)), List.modifyHead_modifyHead]
        congr 1
        funext piece
        simp

theorem pieces_eq (mark : Char) (text : String) :
    pieces mark text = (text.toList.splitOn mark).map String.ofList := by
  unfold pieces
  rw [piecesFrom_eq, modifyHead_nil_append]

theorem intercalate_pieces (mark : Char) (text : String) :
    (String.singleton mark).intercalate (pieces mark text) = text := by
  have hchars : String.toList ∘ String.ofList = id := funext fun cs => String.toList_ofList
  rw [← String.toList_inj, pieces_eq, String.toList_intercalate, List.map_map, hchars,
    List.map_id, String.toList_singleton, List.intercalate_splitOn]

end Split
end UsecaseAudit
