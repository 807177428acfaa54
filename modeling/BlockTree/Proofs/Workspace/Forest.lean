import BlockTree.Proofs.Workspace.Ownership

/-! The links of nodes form a forest as long as every node is attached at most once, and to no node
that is below it. -/
namespace BlockTree

open Link (childrenAt Below attach)

namespace Link

def parentAt (ls : List Link) (n : NodeId) : Option NodeId := ls[n]?.bind (·.parent)

def offspring (ls : List Link) : List NodeId := ls.flatMap (·.children)

variable {ls : List Link} {l : Link} {a b c n p : NodeId}

theorem parentAt_create (l : Link) (hn : n < ls.length) :
    parentAt (ls ++ [l]) n = parentAt ls n := by
  rw [parentAt, List.getElem?_append_left hn, parentAt]

@[simp]
theorem parentAt_attach_self (hc : c < ls.length) : parentAt (attach p c ls) c = some p := by
  rw [parentAt, getElem?_attach, List.getElem?_eq_getElem hc]
  simp

@[simp]
theorem parentAt_attach_of_ne (h : n ≠ c) : parentAt (attach p c ls) n = parentAt ls n := by
  cases hn : ls[n]? <;> simp [parentAt, hn, h]

theorem mem_offspring : c ∈ offspring ls ↔ ∃ n, c ∈ childrenAt ls n := by
  constructor
  · intro h
    obtain ⟨l, hl, hc⟩ := List.mem_flatMap.1 h
    obtain ⟨n, hn⟩ := List.mem_iff_getElem?.1 hl
    exact ⟨n, by rwa [childrenAt, hn]⟩
  · rintro ⟨n, hc⟩
    have hn := lt_of_mem_childrenAt hc
    rw [childrenAt, List.getElem?_eq_getElem hn] at hc
    exact List.mem_flatMap.2 ⟨ls[n], List.getElem_mem hn, hc⟩

theorem offspring_create (h : Fresh ls l) : offspring (ls ++ [l]) = offspring ls := by
  have hl : l.children = [] := by cases h <;> rfl
  simp [offspring, hl]

theorem flatten_modify_perm (cs : List (List NodeId)) (h : p < cs.length) :
    (cs.modify p (· ++ [c])).flatten.Perm (c :: cs.flatten) := by
  induction cs generalizing p with
  | nil => exact absurd h (Nat.not_lt_zero p)
  | cons l cs ih =>
    cases p with
    | zero =>
      rw [List.modify_zero_cons, List.flatten_cons, List.flatten_cons, List.append_assoc]
      exact List.perm_middle
    | succ p =>
      rw [List.modify_succ_cons, List.flatten_cons, List.flatten_cons]
      exact ((ih (Nat.lt_of_succ_lt_succ h)).append_left l).trans List.perm_middle

theorem children_attach (p c : NodeId) (ls : List Link) :
    (attach p c ls).map (·.children) = (ls.map (·.children)).modify p (· ++ [c]) := by
  apply List.ext_getElem?
  intro i
  by_cases hi : i = p
  · subst hi
    cases h : ls[i]? <;> simp [h]
  · cases h : ls[i]? <;> simp [h, hi, Ne.symm hi]

theorem offspring_attach (hp : p < ls.length) :
    (offspring (attach p c ls)).Perm (c :: offspring ls) := by
  rw [offspring, offspring, List.flatMap_def, List.flatMap_def, children_attach]
  exact flatten_modify_perm _ (by rwa [List.length_map])

/-- What is below a node after an attachment was below it before, or comes with the child. -/
theorem below_attach_iff (hp : p < ls.length) :
    Below (attach p c ls) a b ↔ Below ls a b ∨ Below ls a p ∧ Below ls c b := by
  have hold {a b : NodeId} (h : Below ls a b) : Below (attach p c ls) a b :=
    Relation.ReflTransGen.mono (fun _ _ hx => (mem_childrenAt_attach hp).2 (.inl hx)) _ _ h
  constructor
  · intro h
    induction h with
    | refl => exact .inl .refl
    | @tail n x _ hx ih =>
      cases (mem_childrenAt_attach hp).1 hx with
      | inl hx =>
        cases ih with
        | inl h => exact .inl (h.tail hx)
        | inr h => exact .inr ⟨h.1, h.2.tail hx⟩
      | inr hnew =>
        obtain ⟨rfl, rfl⟩ := hnew
        cases ih with
        | inl h => exact .inr ⟨h, .refl⟩
        | inr h => exact .inr ⟨h.1, .refl⟩
  · rintro (h | ⟨h, h'⟩)
    · exact hold h
    · exact ((hold h).tail ((mem_childrenAt_attach hp).2 (.inr ⟨rfl, rfl⟩))).trans (hold h')

/-- Every child has its parent as parent and is listed once, and no node is below a child of its
own. What has a parent has been attached. -/
structure Forest (attached : List NodeId) (ls : List Link) : Prop where
  known : ∀ n, ∀ c ∈ childrenAt ls n, c < ls.length
  attached : ∀ n, ∀ c ∈ childrenAt ls n, c ∈ attached
  parent : ∀ n, ∀ c ∈ childrenAt ls n, parentAt ls c = some n
  once : (offspring ls).Nodup
  acyclic : ∀ n, ∀ c ∈ childrenAt ls n, ¬ Below ls c n

namespace Forest

variable {attached : List NodeId}

theorem start : Forest [] [] where
  known _ _ h := absurd h List.not_mem_nil
  attached _ _ h := absurd h List.not_mem_nil
  parent _ _ h := absurd h List.not_mem_nil
  once := List.nodup_nil
  acyclic _ _ h := absurd h List.not_mem_nil

theorem create (h : Forest attached ls) (hl : Fresh ls l) : Forest attached (ls ++ [l]) := by
  have hch : childrenAt (ls ++ [l]) = childrenAt ls := funext fun n => childrenAt_create hl
  have hbelow : Below (ls ++ [l]) = Below ls := by rw [Below, hch, Below]
  refine ⟨?known, ?attached, ?parent, ?once, ?acyclic⟩
  case known =>
    intro n c hc
    rw [hch] at hc
    rw [List.length_append]
    exact Nat.lt_succ_of_lt (h.known n c hc)
  case attached =>
    rw [hch]
    exact h.attached
  case parent =>
    intro n c hc
    rw [hch] at hc
    rw [parentAt_create l (h.known n c hc)]
    exact h.parent n c hc
  case once =>
    rw [offspring_create hl]
    exact h.once
  case acyclic =>
    rw [hch, hbelow]
    exact h.acyclic

theorem attach (h : Forest attached ls) (hp : p < ls.length) (hc : c < ls.length)
    (hnew : c ∉ attached) (hapart : ¬ Below ls c p) :
    Forest (attached ++ [c]) (attach p c ls) := by
  have hmem (x n : NodeId) : x ∈ childrenAt (Link.attach p c ls) n ↔
      x ∈ childrenAt ls n ∨ n = p ∧ x = c := mem_childrenAt_attach hp
  refine ⟨?known, ?attached, ?parent, ?once, ?acyclic⟩
  case known =>
    intro n x hx
    rw [length_attach]
    cases (hmem x n).1 hx with
    | inl hx => exact h.known n x hx
    | inr hnew => exact hnew.2 ▸ hc
  case attached =>
    intro n x hx
    rw [List.mem_append]
    cases (hmem x n).1 hx with
    | inl hx => exact .inl (h.attached n x hx)
    | inr hnew => exact .inr (List.mem_singleton.2 hnew.2)
  case parent =>
    intro n x hedge
    obtain hx | ⟨rfl, rfl⟩ := (hmem x n).1 hedge
    · have hxc : x ≠ c := fun heq => hnew (heq ▸ h.attached n x hx)
      rw [parentAt_attach_of_ne hxc]
      exact h.parent n x hx
    · exact parentAt_attach_self hc
  case once =>
    rw [(offspring_attach hp).nodup_iff, List.nodup_cons]
    refine ⟨fun hold => ?_, h.once⟩
    obtain ⟨n, hn⟩ := mem_offspring.1 hold
    exact hnew (h.attached n c hn)
  case acyclic =>
    intro n x hedge hback
    obtain hx | ⟨rfl, rfl⟩ := (hmem x n).1 hedge
    · -- a way back through the new link would lead from the child up to its parent
      obtain hback | ⟨hxp, hcn⟩ := (below_attach_iff hp).1 hback
      · exact h.acyclic n x hx hback
      · exact hapart ((hcn.tail hx).trans hxp)
    · obtain hback | ⟨hback, -⟩ := (below_attach_iff hp).1 hback
      · exact hapart hback
      · exact hapart hback

theorem irreflexive (h : Forest attached ls) (n : NodeId) :
    ¬ Relation.TransGen (fun n c => c ∈ childrenAt ls n) n n := by
  intro hloop
  obtain ⟨c, hc, hback⟩ := (Relation.TransGen.head'_iff).1 hloop
  exact h.acyclic n c hc hback

/-- Of two nodes with a common node below them, one is below the other. -/
theorem below_or_below (h : Forest attached ls) (ha : Below ls a n) (hb : Below ls b n) :
    Below ls a b ∨ Below ls b a := by
  have hunique : Relator.RightUnique (Function.swap fun n c => c ∈ childrenAt ls n) := by
    intro c n n' hn hn'
    have hparent := (h.parent n c hn).symm.trans (h.parent n' c hn')
    exact Option.some.inj hparent
  cases Relation.ReflTransGen.total_of_right_unique hunique
    (Relation.reflTransGen_swap.2 ha) (Relation.reflTransGen_swap.2 hb) with
  | inl hab => exact .inr (Relation.reflTransGen_swap.1 hab)
  | inr hba => exact .inl (Relation.reflTransGen_swap.1 hba)

theorem eq_of_below (h : Forest attached ls) {x : NodeId} (ha : a ∈ childrenAt ls n)
    (hb : b ∈ childrenAt ls n) (hax : Below ls a x) (hbx : Below ls b x) : a = b := by
  have hapart {a b : NodeId} (ha : a ∈ childrenAt ls n) (hb : b ∈ childrenAt ls n)
      (hab : Below ls a b) : a = b := by
    cases Relation.ReflTransGen.cases_tail hab with
    | inl heq => exact heq.symm
    | inr hlast =>
      obtain ⟨q, haq, hq⟩ := hlast
      obtain rfl : q = n := Option.some.inj ((h.parent q b hq).symm.trans (h.parent n b hb))
      exact absurd haq (h.acyclic q a ha)
  cases h.below_or_below hax hbx with
  | inl hab => exact hapart ha hb hab
  | inr hba => exact (hapart hb ha hba).symm

end Forest

end Link

namespace Attachment

/-- Nothing is attached twice, or to a node that is below it. -/
structure Grafting (as : List Attachment) : Prop where
  once : (as.map (·.child)).Nodup
  apart : ∀ a ∈ as, ¬ Below a.before a.child a.parent

theorem Grafting.of_append {as bs : List Attachment} (h : Grafting (as ++ bs)) : Grafting as where
  once := by
    have hnd := h.once
    rw [List.map_append] at hnd
    exact hnd.sublist (List.sublist_append_left ..)
  apart a ha := h.apart a (List.mem_append_left _ ha)

theorem Grafting.unattached {as : List Attachment} {a : Attachment} (h : Grafting (as ++ [a])) :
    a.child ∉ as.map (·.child) := by
  have hnd := h.once
  rw [List.map_append, List.nodup_append] at hnd
  intro hmem
  exact hnd.2.2 a.child hmem a.child (List.mem_singleton_self _) rfl

end Attachment

namespace Session

open Attachment (Grafting)

theorem forest_step (s : Session) (x : Step) {as : List Attachment}
    (h : Link.Forest (as.map (·.child)) s.workspace.links)
    (hg : Grafting (as ++ (x.attachment? s.workspace).toList.map
      fun a => ⟨s.workspace.links, a.1, a.2⟩)) :
    Link.Forest ((as ++ (x.attachment? s.workspace).toList.map
      fun a => Attachment.mk s.workspace.links a.1 a.2).map (·.child))
        (s.step x).1.workspace.links := by
  have hstep := s.step_links x
  revert hg hstep
  generalize x.attachment? s.workspace = a
  generalize (s.step x).1.workspace.links = ls
  intro hg hstep
  cases hstep with
  | keep => simpa using h
  | create hl => simpa using h.create hl
  | @attach p c hp hc =>
    rw [List.map_append]
    have hapart := hg.apart _ (List.mem_append_right as (List.mem_singleton_self _))
    exact h.attach hp hc hg.unattached hapart

theorem forest_after (s : Session) (xs : List Step) {as : List Attachment}
    (h : Link.Forest (as.map (·.child)) s.workspace.links)
    (hg : Grafting (as ++ s.attachments xs)) :
    Link.Forest ((as ++ s.attachments xs).map (·.child)) (s.after xs).workspace.links := by
  induction xs generalizing s as with
  | nil => simpa [attachments, after] using h
  | cons x xs ih =>
    rw [attachments, ← List.append_assoc] at hg ⊢
    exact ih (s.step x).1 (s.forest_step x h hg.of_append) hg

end Session

end BlockTree
