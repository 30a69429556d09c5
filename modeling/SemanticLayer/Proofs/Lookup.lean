import Mathlib.Data.List.Induction
import Mathlib.Data.List.Nodup
import Mathlib.Data.String.Basic
import SemanticLayer.Model
import SemanticLayer.Proofs.Legs

namespace SemanticLayer

theorem find_insert (key : α → String) (x : α) (l : List α) (name : String) :
    Sorted.find? key name (Sorted.insert key x l) =
      if key x = name then some x else Sorted.find? key name l := by
  unfold Sorted.find?
  induction l with
  | nil => by_cases same : key x = name <;> simp [Sorted.insert, same]
  | cons y ys ih =>
    rw [Sorted.insert]
    split
    · by_cases same : key x = name <;> simp [List.find?_cons, same]
    · split
      · rename_i replaced
        by_cases same : key x = name
        · simp [same]
        · have other : key y ≠ name := replaced ▸ same
          simp [same, other]
      · rename_i apart
        by_cases here : key y = name
        · have other : key x ≠ name := here ▸ apart
          simp [here, other]
        · simpa [here] using ih

section
variable {α : Type} {β : Type} (key : α → String)

theorem find_inserts (make : β → α) (items : List β) (l : List α) (name : String) :
    Sorted.find? key name (items.foldl (fun l item => Sorted.insert key (make item) l) l) =
      ((items.reverse.find? fun item => key (make item) == name).map make).or
        (Sorted.find? key name l) := by
  induction items generalizing l with
  | nil => rfl
  | cons item rest ih =>
    rw [List.foldl_cons, ih, find_insert, List.reverse_cons, List.find?_append, List.find?_singleton]
    by_cases same : key (make item) = name
    · cases rest.reverse.find? fun item => key (make item) == name <;> simp [same]
    · simp [same]

theorem insert_again {x y : α} (same : key x = key y) (l : List α) :
    Sorted.insert key y (Sorted.insert key x l) = Sorted.insert key y l := by
  induction l with
  | nil => simp [Sorted.insert, same]
  | cons z zs ih => grind [Sorted.insert, String.lt_irrefl]

theorem insert_swap {x y : α} (apart : key x ≠ key y) (l : List α) :
    Sorted.insert key y (Sorted.insert key x l) = Sorted.insert key x (Sorted.insert key y l) := by
  induction l with
  | nil => grind [Sorted.insert]
  | cons z zs ih => grind [Sorted.insert]

theorem inserts_swap (make : β → α) (items : List β) (x : α)
    (apart : ∀ item ∈ items, key x ≠ key (make item)) (l : List α) :
    items.foldl (fun l item => Sorted.insert key (make item) l) (Sorted.insert key x l) =
      Sorted.insert key x (items.foldl (fun l item => Sorted.insert key (make item) l) l) := by
  induction items generalizing l with
  | nil => rfl
  | cons item rest ih =>
    obtain ⟨here, later⟩ := List.forall_mem_cons.mp apart
    rw [List.foldl_cons, List.foldl_cons, insert_swap key here, ih later]

theorem insert_map (read : α → β) (name : β → String) (named : ∀ x, name (read x) = key x) (x : α)
    (l : List α) : (Sorted.insert key x l).map read = Sorted.insert name (read x) (l.map read) := by
  induction l with
  | nil => rfl
  | cons y ys ih =>
    rw [Sorted.insert, List.map_cons, Sorted.insert, named, named]
    split
    · rfl
    · split
      · rfl
      · rw [List.map_cons, ih]

theorem find_map (read : α → β) (name : β → String) (named : ∀ x, name (read x) = key x)
    (label : String) (l : List α) :
    Sorted.find? name label (l.map read) = (Sorted.find? key label l).map read := by
  unfold Sorted.find?
  rw [List.find?_map]
  simp only [Function.comp_def, named]

theorem insert_fresh (x : α) (l : List α) (fresh : key x ∉ l.map key) :
    (Sorted.insert key x l).Perm (x :: l) := by
  induction l with
  | nil => rfl
  | cons y ys ih =>
    rw [List.map_cons, List.mem_cons, not_or] at fresh
    rw [Sorted.insert, if_neg fresh.1]
    split
    · rfl
    · exact ((ih fresh.2).cons y).trans (.swap x y ys)

theorem inserts_fresh (make : β → α) (items : List β) (l : List α)
    (distinct : (l.map key ++ items.map fun item => key (make item)).Nodup) :
    (items.foldl (fun l item => Sorted.insert key (make item) l) l).Perm (l ++ items.map make) := by
  induction items generalizing l with
  | nil => simp
  | cons item rest ih =>
    have fresh : key (make item) ∉ l.map key := fun taken =>
      (List.nodup_append.mp distinct).2.2 _ taken _ List.mem_cons_self rfl
    have one := insert_fresh key (make item) l fresh
    rw [List.foldl_cons, List.map_cons]
    refine ((ih _ ?_).trans (one.append_right _)).trans List.perm_middle.symm
    have same := (one.map key).append_right (rest.map fun item => key (make item))
    exact same.nodup_iff.mpr (List.perm_middle.nodup_iff.mp distinct)

theorem find_present {l : List α} (member : x ∈ l) :
    ∃ y ∈ l, key y = key x ∧ Sorted.find? key (key x) l = some y := by
  unfold Sorted.find?
  cases found : l.find? (key · == key x) with
  | none =>
    have absent := List.find?_eq_none.mp found x member
    simp at absent
  | some y =>
    have same : key y = key x := by simpa using List.find?_some found
    exact ⟨y, List.mem_of_find?_eq_some found, same, rfl⟩

theorem find_distinct {l : List α} (distinct : (l.map key).Nodup) (member : x ∈ l) :
    Sorted.find? key (key x) l = some x := by
  obtain ⟨y, inside, same, found⟩ := find_present key member
  rw [found, List.inj_on_of_nodup_map distinct inside member same]

theorem insert_member {x y : α} {l : List α} (member : y ∈ Sorted.insert key x l) :
    y = x ∨ y ∈ l := by
  induction l with
  | nil => exact .inl (List.mem_singleton.mp member)
  | cons z zs ih =>
    rw [Sorted.insert] at member
    split at member
    · exact List.mem_cons.mp member
    · split at member
      · exact (List.mem_cons.mp member).imp_right (List.mem_cons_of_mem z)
      · rcases List.mem_cons.mp member with same | later
        · exact .inr (same ▸ List.mem_cons_self)
        · exact (ih later).imp_right (List.mem_cons_of_mem z)

theorem insert_sorted (x : α) {l : List α} (sorted : l.Pairwise fun a b => key a < key b) :
    (Sorted.insert key x l).Pairwise fun a b => key a < key b := by
  induction l with
  | nil => exact List.pairwise_singleton _ x
  | cons y ys ih =>
    obtain ⟨first, rest⟩ := List.pairwise_cons.mp sorted
    rw [Sorted.insert]
    split
    · rename_i before
      refine List.pairwise_cons.mpr ⟨?_, sorted⟩
      intro z member
      rcases List.mem_cons.mp member with rfl | later
      · exact before
      · exact before.trans (first z later)
    · rename_i notBefore
      split
      · rename_i same
        exact List.pairwise_cons.mpr ⟨same ▸ first, rest⟩
      · rename_i apart
        refine List.pairwise_cons.mpr ⟨?_, ih rest⟩
        intro z member
        rcases insert_member key member with rfl | old
        · exact lt_of_le_of_ne (not_lt.mp notBefore) (Ne.symm apart)
        · exact first z old

theorem sorted_found {x : α} {l : List α} (sorted : l.Pairwise fun a b => key a < key b)
    (member : x ∈ l) : Sorted.find? key (key x) l = some x := by
  have distinct : (l.map key).Nodup :=
    List.pairwise_map.mpr (sorted.imp fun before => before.ne)
  exact find_distinct key distinct member

end

theorem eraseDups_concat [DecidableEq α] (items : List α) (item : α) :
    (items ++ [item]).eraseDups =
      if item ∈ items then items.eraseDups else items.eraseDups ++ [item] := by
  rw [List.eraseDups_append]
  by_cases present : item ∈ items <;> simp [List.removeAll, List.eraseDups_cons, present]

theorem eraseDups_distinct [DecidableEq α] (items : List α) : items.eraseDups.Nodup := by
  induction items using List.reverseRecOn with
  | nil => exact List.nodup_nil
  | append_singleton items item ih =>
    rw [eraseDups_concat]
    split
    · exact ih
    · rename_i fresh
      have apart : item ∉ items.eraseDups := fun present => fresh (List.mem_eraseDups.mp present)
      exact List.nodup_append.mpr ⟨ih, List.nodup_singleton item, by grind⟩

theorem find_member (found : Sorted.find? key name l = some x) : x ∈ l := by
  unfold Sorted.find? at found
  exact List.mem_of_find?_eq_some found

theorem insert_attribute (d : Domain) (member : Attribute) (name : String) :
    (d.insert member).attribute? name =
      if member.name = name then some member else d.attribute? name :=
  find_insert Attribute.name member d.attributes name

theorem register_domain (m : Model) (d : Domain) (name : String) :
    (m.register d).domain? name = if d.name = name then some d else m.domain? name :=
  find_insert Domain.name d m.domains name

theorem attribute_named (found : Domain.attribute? d name = some member) :
    member.name = name ∧ name ∈ d.attributes.map Attribute.name := by
  have same : member.name = name := by simpa using List.find?_some found
  exact ⟨same, same ▸ List.mem_map_of_mem (find_member found)⟩

theorem domain_named (found : Model.domain? m name = some d) : d.name = name := by
  simpa using List.find?_some found

theorem attribute_lookup (found : Domain.lookup d name = .ok member) :
    d.attribute? name = some member := by
  unfold Domain.lookup at found
  split at found
  · rename_i present
    cases found
    exact present
  · cases found

theorem domain_lookup (found : Model.lookup m name = .ok d) : m.domain? name = some d := by
  unfold Model.lookup at found
  split at found
  · rename_i present
    cases found
    exact present
  · cases found

theorem extend_parts (made : Model.extend m name add = .ok (member, next)) :
    ∃ d grown, m.domain? name = some d ∧ add d = .ok (member, grown) ∧ next = m.register grown := by
  obtain ⟨d, found, made⟩ := bind_parts made
  obtain ⟨⟨_, grown⟩, added, made⟩ := bind_parts made
  cases made
  exact ⟨d, grown, domain_lookup found, added, rfl⟩

theorem foldlM_keeps {σ ε α : Type} {f : σ → α → Except ε σ} {start last : σ} (holds : σ → Prop)
    (items : List α)
    (step : ∀ item ∈ items, ∀ before after, holds before → f before item = .ok after → holds after)
    (first : holds start) (ran : items.foldlM f start = .ok last) : holds last := by
  induction items generalizing start with
  | nil =>
    cases ran
    exact first
  | cons item rest ih =>
    rw [List.foldlM_cons] at ran
    obtain ⟨next, made, ran⟩ := bind_parts ran
    exact ih (fun later member => step later (List.mem_cons_of_mem item member))
      (step item List.mem_cons_self start next first made) ran

end SemanticLayer
