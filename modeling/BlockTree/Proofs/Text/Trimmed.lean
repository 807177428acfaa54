import BlockTree.Text.Characters
import Mathlib.Data.List.TakeWhile

/-! Trimming, told by what it takes away. What is left lies between two ends that hold nothing but
elements of one kind, and neither starts nor ends with such an element; nothing else can be left. -/
namespace BlockTree.Text

variable {α : Type}

/-- Ends of elements of one kind, around a middle that neither starts nor ends with one. The middle
may be empty. -/
structure Margins (P : α → Prop) (pre mid post : List α) : Prop where
  before : ∀ x ∈ pre, P x
  after : ∀ x ∈ post, P x
  first : ∀ x ∈ mid.head?, ¬P x
  last : ∀ x ∈ mid.getLast?, ¬P x

variable {p : α → Bool} {xs pre mid post : List α}

theorem mem_of_mem_trimEnds {x : α} (h : x ∈ trimEnds p xs) : x ∈ xs := by
  have hback := (List.dropWhile_sublist p).mem (List.mem_reverse.1 h)
  exact (List.dropWhile_sublist p).mem (List.mem_reverse.1 hback)

theorem dropWhile_append_stop (hpre : ∀ x ∈ pre, p x) (hmid : ∀ x ∈ mid.head?, ¬p x) :
    (pre ++ mid).dropWhile p = mid := by
  rw [List.dropWhile_append_of_pos hpre]
  cases mid with
  | nil => rfl
  | cons x xs => exact List.dropWhile_cons_of_neg (hmid x rfl)

theorem Margins.trimEnds_eq (h : Margins (p ·) pre mid post) :
    trimEnds p (pre ++ mid ++ post) = mid := by
  have hpost : ∀ x ∈ post.reverse, p x := fun x hx => h.after x (List.mem_reverse.1 hx)
  have hlast : ∀ x ∈ mid.reverse.head?, ¬p x := by
    rw [List.head?_reverse]
    exact h.last
  have hback : (post.reverse ++ mid.reverse).dropWhile p = mid.reverse :=
    dropWhile_append_stop hpost hlast
  unfold trimEnds
  cases mid with
  | nil =>
    -- nothing stops the front before the end, so that all of the list is dropped at once
    have hall : ∀ x ∈ pre ++ [] ++ post, p x := by
      simpa [or_imp, forall_and] using And.intro h.before h.after
    rw [List.dropWhile_eq_nil_iff.2 hall]
    rfl
  | cons m ms =>
    have hfront : (pre ++ (m :: ms ++ post)).dropWhile p = m :: ms ++ post :=
      dropWhile_append_stop h.before h.first
    rw [List.append_assoc, hfront, List.reverse_append, hback, List.reverse_reverse]

theorem not_of_mem_head?_dropWhile {x : α} (h : x ∈ (xs.dropWhile p).head?) : ¬p x := by
  have hstop := List.head?_dropWhile_not p xs
  rw [Option.mem_def.1 h] at hstop
  exact Bool.eq_false_iff.1 hstop

theorem margins_trimEnds (p : α → Bool) (xs : List α) :
    ∃ pre post, xs = pre ++ trimEnds p xs ++ post ∧ Margins (p ·) pre (trimEnds p xs) post := by
  let ys := xs.dropWhile p
  let zs := ys.reverse
  have hfront : xs.takeWhile p ++ ys = xs := List.takeWhile_append_dropWhile
  have hback : trimEnds p xs ++ (zs.takeWhile p).reverse = ys := by
    have hzs : zs.takeWhile p ++ zs.dropWhile p = zs := List.takeWhile_append_dropWhile
    have hrev := congrArg List.reverse hzs
    rwa [List.reverse_append, List.reverse_reverse] at hrev
  refine ⟨xs.takeWhile p, (zs.takeWhile p).reverse, ?_, ?_⟩
  · rw [List.append_assoc, hback, hfront]
  constructor
  · exact fun x hx => List.mem_takeWhile_imp hx
  · exact fun x hx => List.mem_takeWhile_imp (List.mem_reverse.1 hx)
  · intro x hx
    -- the middle starts where the front was left
    have hhead : x ∈ ys.head? := by
      rw [← hback, List.head?_append, Option.mem_def.1 hx]
      rfl
    exact not_of_mem_head?_dropWhile hhead
  · intro x hx
    rw [trimEnds, List.getLast?_reverse] at hx
    exact not_of_mem_head?_dropWhile hx

theorem mem_trimEnds {x : α} (h : x ∈ xs) (hx : p x = false) : x ∈ trimEnds p xs := by
  obtain ⟨pre, post, hxs, hm⟩ := margins_trimEnds p xs
  rw [hxs, List.mem_append, List.mem_append] at h
  obtain (hpre | hmid) | hpost := h
  · exact absurd (hm.before x hpre) (by simp [hx])
  · exact hmid
  · exact absurd (hm.after x hpost) (by simp [hx])

/-- What trimming leaves is the middle between two margins, and there is only one. -/
theorem trimEnds_eq_iff :
    trimEnds p xs = mid ↔ ∃ pre post, xs = pre ++ mid ++ post ∧ Margins (p ·) pre mid post := by
  constructor
  · rintro rfl
    exact margins_trimEnds p xs
  · rintro ⟨pre, post, rfl, h⟩
    exact h.trimEnds_eq

@[simp]
theorem trimEnds_eq_nil_iff : trimEnds p xs = [] ↔ ∀ x ∈ xs, p x := by
  constructor
  · intro h
    obtain ⟨pre, post, rfl, hm⟩ := trimEnds_eq_iff.1 h
    simpa [or_imp, forall_and] using And.intro hm.before hm.after
  · intro h
    exact trimEnds_eq_iff.2 ⟨xs, [], by simp, h, by simp, by simp, by simp⟩

theorem isBlank_iff (l : String) : isBlank l ↔ strip l = "" := by
  rw [← String.toList_inj]
  simp [isBlank, strip]

theorem margins_isBlank {pre mid post : List String} :
    Margins (isBlank ·) pre mid post ↔ Margins (strip · = "") pre mid post := by
  simp only [isBlank_iff]

end BlockTree.Text
