import BlockTree.Proofs.Workspace.Attachment

/-! Which document the nodes below a document belong to after a run of steps. -/
namespace BlockTree

open Link (childrenAt documentAt rootAt Below)
open Attachment (Orderly Accounts)

namespace Workspace

variable (w : Workspace)

def convertBy (c : Converter) (fuel : Nat) (n : NodeId) (b : Node) : Run Tally Datum :=
  match c with
  | .content => w.content fuel n
  | .mute => return .null
  | .tag => do
    let d ← w.content fuel n
    if d.isNull then return d
    else
      let name := (w.resolve b.context).text
      return .text ("<" ++ name ++ ">" ++ (w.resolve d).text ++ "</" ++ name ++ ">")

/-- A node whose document is the given one, so that it substitutes and converts as that one does. -/
def Belongs (d : NodeId) (p : Pipe) (c : Converter) (n : NodeId) : Prop :=
  ∃ b, w.node n = .ok b ∧ b.document = some d ∧
    (∀ source subs, w.applySubs b source subs = w.applyPipe p source subs) ∧
    ∀ fuel, w.convert (fuel + 1) n = w.convertBy c fuel n b

variable {w} {d n : NodeId} {b : Node} {p : Pipe} {c : Converter}

@[simp]
theorem rootAt_links : rootAt w.links d = w.nodes[d]?.bind (·.body.root) := by
  cases h : w.nodes[d]? <;> simp [rootAt, Node.link, h]

theorem documentOf_eq (hd : rootAt w.links d = some (p, c)) (hb : b.document = some d) :
    w.documentOf b = .ok (some (p, c)) := by
  rw [rootAt_links] at hd
  obtain ⟨a, ha, hroot⟩ := Option.bind_eq_some_iff.1 hd
  have hbody : a.body = .document p c := by
    cases hab : a.body <;> rw [hab] at hroot <;> cases hroot
    rfl
  have hnode : w.node d = .ok a := node_eq_ok_iff.2 ha
  simp only [documentOf, hb, hnode, bind, Except.bind, hbody]
  rfl

theorem applySubs_eq (h : w.documentOf b = .ok (some (p, c))) (source subs : Datum) :
    w.applySubs b source subs = w.applyPipe p source subs := by
  rw [applySubs, h]
  rfl

theorem convert_eq (hn : w.node n = .ok b) (h : w.documentOf b = .ok (some (p, c))) (fuel : Nat) :
    w.convert (fuel + 1) n = w.convertBy c fuel n b := by
  rw [convert, hn]
  change (Run.ofExcept (w.documentOf b) >>= _) = _
  rw [h]
  cases c <;> rfl

theorem belongs_iff_documentAt (hd : rootAt w.links d = some (p, c)) :
    w.Belongs d p c n ↔ documentAt w.links n = some d := by
  rw [documentAt_links]
  constructor
  · intro h
    obtain ⟨b, hn, hb, -⟩ := h
    rw [node_eq_ok_iff.1 hn]
    exact hb
  · intro h
    obtain ⟨b, hn, hb⟩ := Option.bind_eq_some_iff.1 h
    have hdoc := documentOf_eq hd hb
    have hnode : w.node n = .ok b := node_eq_ok_iff.2 hn
    exact ⟨b, hnode, hb, applySubs_eq hdoc, convert_eq hnode hdoc⟩

end Workspace

namespace Session

def after (s : Session) (xs : List Step) : Session := xs.foldl (fun s x => (s.step x).1) s

/-- The nodes that steps in order append to others. -/
def attachments : Session → List Step → List Attachment
  | _, [] => []
  | s, x :: xs => (x.attachment? s.workspace).toList.map (fun a => ⟨s.workspace.links, a.1, a.2⟩) ++
      attachments (s.step x).1 xs

theorem accounts_step (s : Session) (x : Step) {as : List Attachment}
    (h : Accounts as s.workspace.links)
    (ho : Orderly (as ++ (x.attachment? s.workspace).toList.map
      fun a => ⟨s.workspace.links, a.1, a.2⟩)) :
    Accounts (as ++ (x.attachment? s.workspace).toList.map fun a => ⟨s.workspace.links, a.1, a.2⟩)
      (s.step x).1.workspace.links := by
  have hstep := s.step_links x
  revert ho hstep
  generalize x.attachment? s.workspace = a
  generalize (s.step x).1.workspace.links = ls
  intro ho hstep
  cases hstep with
  | keep => simpa using h
  | create hl => simpa using h.create hl
  | @attach p c hp hc => exact Accounts.attach (a := ⟨_, p, c⟩) h hp hc ho

theorem accounts_after (s : Session) (xs : List Step) {as : List Attachment}
    (h : Accounts as s.workspace.links) (ho : Orderly (as ++ s.attachments xs)) :
    Accounts (as ++ s.attachments xs) (s.after xs).workspace.links := by
  induction xs generalizing s as with
  | nil => simpa [attachments, after] using h
  | cons x xs ih =>
    rw [attachments, ← List.append_assoc] at ho ⊢
    exact ih (s.step x).1 (s.accounts_step x h ho.of_append) ho

/-- After any run in which nothing is attached twice and no document is attached, all nodes below a
document belong to it exactly if no node below it was given a document when it already had children
with another one. -/
theorem tree_belongs_iff (modules : List (String × Option (List (String × Stock)))) (xs : List Step)
    (ho : Orderly ((start modules).attachments xs)) (d : NodeId) (p : Pipe) (c : Converter)
    (hd : rootAt ((start modules).after xs).workspace.links d = some (p, c)) :
    (∀ n, Below ((start modules).after xs).workspace.links d n →
        ((start modules).after xs).workspace.Belongs d p c n) ↔
      ∀ a ∈ (start modules).attachments xs, a.Relinks →
        ¬ Below ((start modules).after xs).workspace.links d a.child := by
  have hstart : Accounts [] (start modules).workspace.links := Accounts.start
  have hacc := (start modules).accounts_after xs hstart ho
  rw [List.nil_append] at hacc
  have hsome : (rootAt ((start modules).after xs).workspace.links d).isSome := by rw [hd]; rfl
  rw [← hacc.belongs_iff hsome]
  exact forall₂_congr fun n _ => Workspace.belongs_iff_documentAt hd

def topDown : List Step := [
  .change (.document "doc" .null (.stocks []) .content),
  .change (.block "a" (.text "open") (some "doc") (.fields [("content_model", .text "compound")])),
  .change (.append "doc" "a"),
  .change (.block "b" (.text "paragraph") (some "a") (.fields [])),
  .change (.append "a" "b")]

theorem attachments_topDown : (start []).attachments topDown = [
    ⟨[⟨none, some 0, [], some (.substitutor 0, .content)⟩, ⟨some 0, some 0, [], none⟩], 0, 1⟩,
    ⟨[⟨none, some 0, [1], some (.substitutor 0, .content)⟩, ⟨some 0, some 0, [], none⟩,
      ⟨some 1, some 0, [], none⟩], 1, 2⟩] := rfl

theorem links_topDown : ((start []).after topDown).workspace.links = [
    ⟨none, some 0, [1], some (.substitutor 0, .content)⟩, ⟨some 0, some 0, [2], none⟩,
    ⟨some 1, some 0, [], none⟩] := rfl

theorem orderly_topDown : Orderly ((start []).attachments topDown) := by
  rw [attachments_topDown]
  exact ⟨by decide, by simp [rootAt]⟩

theorem tree_belongs_topDown :
    Orderly ((start []).attachments topDown) ∧
    rootAt ((start []).after topDown).workspace.links 0 = some (.substitutor 0, .content) ∧
    ∀ n, Below ((start []).after topDown).workspace.links 0 n →
      ((start []).after topDown).workspace.Belongs 0 (.substitutor 0) .content n := by
  have hroot : rootAt ((start []).after topDown).workspace.links 0 =
      some (.substitutor 0, .content) := by
    rw [links_topDown]
    rfl
  refine ⟨orderly_topDown, hroot, ?_⟩
  refine (tree_belongs_iff [] topDown orderly_topDown 0 _ _ hroot).2 ?_
  rw [attachments_topDown]
  intro a ha hr
  simp only [List.mem_cons, List.not_mem_nil, or_false] at ha
  cases ha with
  | inl ha =>
    subst ha
    exact absurd rfl hr.1
  | inr ha =>
    subst ha
    exact absurd rfl hr.1

def bottomUp : List Step := [
  .change (.document "doc" .null (.stocks []) .content),
  .change (.block "a" (.text "open") none (.fields [("content_model", .text "compound")])),
  .change (.block "b" (.text "paragraph") none (.fields [])),
  .change (.append "a" "b"),
  .change (.append "doc" "a")]

theorem attachments_bottomUp : (start []).attachments bottomUp = [
    ⟨[⟨none, some 0, [], some (.substitutor 0, .content)⟩, ⟨none, none, [], none⟩,
      ⟨none, none, [], none⟩], 1, 2⟩,
    ⟨[⟨none, some 0, [], some (.substitutor 0, .content)⟩, ⟨none, none, [2], none⟩,
      ⟨some 1, none, [], none⟩], 0, 1⟩] := rfl

theorem links_bottomUp : ((start []).after bottomUp).workspace.links = [
    ⟨none, some 0, [1], some (.substitutor 0, .content)⟩, ⟨some 0, some 0, [2], none⟩,
    ⟨some 1, none, [], none⟩] := rfl

/-- Attached from its leaf upwards, a tree keeps a leaf without a document. -/
theorem leaf_without_document :
    Orderly ((start []).attachments bottomUp) ∧
    (∀ a ∈ (start []).attachments bottomUp, ¬ Below a.before a.child a.parent) ∧
    (rootAt ((start []).after bottomUp).workspace.links 0).isSome ∧
    Below ((start []).after bottomUp).workspace.links 0 2 ∧
    documentAt ((start []).after bottomUp).workspace.links 2 = none := by
  rw [attachments_bottomUp, links_bottomUp]
  refine ⟨⟨by decide, by simp [rootAt]⟩, ?_, rfl, ?_, rfl⟩
  · intro a ha hbelow
    simp only [List.mem_cons, List.not_mem_nil, or_false] at ha
    obtain rfl | rfl := ha
    · exact absurd (Link.Below.eq_of_childless rfl hbelow) (by decide)
    · cases Relation.ReflTransGen.cases_head hbelow with
      | inl heq => exact absurd heq (by decide)
      | inr hstep =>
        obtain ⟨c, hc, hbelow⟩ := hstep
        obtain rfl := List.mem_singleton.1 hc
        exact absurd (Link.Below.eq_of_childless rfl hbelow) (by decide)
  · refine Relation.ReflTransGen.tail (b := 1) (.single ?_) ?_
    · exact List.mem_singleton_self 1
    · exact List.mem_singleton_self 2
end Session

end BlockTree
