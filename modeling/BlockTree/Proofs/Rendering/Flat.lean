import BlockTree.Render

/-! Rendering as flattening. A block adds a list of texts to its document, and joining joined texts
is joining them at once, because a compound block without any texts adds an empty one. -/
namespace BlockTree

namespace Text

def joined? : List String → Option String
  | [] => none
  | l :: ls => some (joinLines (l :: ls))

theorem joinLines_eq_getD (ts : List String) : joinLines ts = (joined? ts).getD "" := by
  cases ts <;> rfl

@[simp]
theorem joined?_toList (c : Option String) : joined? c.toList = c := by
  cases c <;> rfl

theorem joinLines_append {us : List String} (l : String) (ls : List String) (hu : us ≠ []) :
    joinLines (l :: ls ++ us) = joinLines (l :: ls) ++ "\n" ++ joinLines us := by
  induction ls generalizing l with
  | nil =>
    cases us with
    | nil => exact absurd rfl hu
    | cons u us => rfl
  | cons k ks ih =>
    have h := ih k
    simp only [List.cons_append, joinLines] at h ⊢
    rw [h]
    simp only [String.append_assoc]

@[simp]
theorem joined?_append (ts us : List String) :
    joined? (ts ++ us) = (joined? ts).merge (· ++ "\n" ++ ·) (joined? us) := by
  cases ts with
  | nil => simp [joined?]
  | cons t ts =>
    cases us with
    | nil => simp [joined?]
    | cons u us =>
      have h := joinLines_append t ts (List.cons_ne_nil u us)
      simpa [joined?] using h

theorem joinLines_replace {ts : List String} (as bs : List String) (h : ts ≠ []) :
    joinLines (as ++ joinLines ts :: bs) = joinLines (as ++ ts ++ bs) := by
  have hj : joined? [joinLines ts] = joined? ts := by
    cases ts with
    | nil => exact absurd rfl h
    | cons t ts => rfl
  rw [joinLines_eq_getD, joinLines_eq_getD (as ++ ts ++ bs), ← List.singleton_append]
  simp only [List.append_assoc, joined?_append, hj]

end Text

open Text (joined? joined?_append joined?_toList joinLines_eq_getD)

namespace Block

variable {m : Type → Type} [Monad m]

mutual
/-- The texts that a block adds to its document; a compound block without any adds an empty one. -/
def flat (p : Pipeline m) : Block → m (List String)
  | .node f bs => match f.model with
    | .empty => pure []
    | .simple => return [← p.text f.subs (Text.joinLines f.lines)]
    | .verbatim | .raw => return (lineContent (← p.lines f.subs f.lines)).toList
    | .compound => do
      let ts ← flats p bs
      return if ts = [] then [""] else ts

def flats (p : Pipeline m) : List Block → m (List String)
  | [] => pure []
  | b :: bs => do
    let ts ← b.flat p
    let us ← flats p bs
    return ts ++ us
end

variable [LawfulMonad m] (p : Pipeline m)

theorem joined?_orEmpty (ts : List String) :
    joined? (if ts = [] then [""] else ts) = some (Text.joinLines ts) := by
  cases ts <;> rfl

theorem map_joinLines (x : m (List String)) :
    Text.joinLines <$> x = (·.getD "") <$> joined? <$> x := by
  rw [← comp_map]
  exact congrArg (· <$> x) (funext joinLines_eq_getD)

theorem contents_cons_joined (b : Block) (bs : List Block) :
    joined? <$> contents p (b :: bs) = do
      let c ← b.content p
      let d ← joined? <$> contents p bs
      return c.merge (· ++ "\n" ++ ·) d := by
  simp [contents]

theorem flats_cons_joined (b : Block) (bs : List Block) :
    joined? <$> flats p (b :: bs) = do
      let c ← joined? <$> b.flat p
      let d ← joined? <$> flats p bs
      return c.merge (· ++ "\n" ++ ·) d := by
  simp [flats]

theorem ownContent_eq_flat (f : Fields) (bs : List Block) (h : f.model ≠ .compound) :
    ownContent p f = joined? <$> (Block.node f bs).flat p := by
  cases hm : f.model with
  | compound => exact absurd hm h
  | empty => simp [ownContent, flat, hm, joined?]
  | simple => simp [ownContent, flat, hm, joined?, Text.joinLines]
  | verbatim | raw => simp [ownContent, flat, hm]

mutual
/-- The content of a block is the join of what it adds, and there is none if it adds nothing. -/
theorem content_eq_flat : ∀ b : Block, b.content p = joined? <$> b.flat p
  | .node f bs => by
    by_cases h : f.model = .compound
    · have hj : Text.joinLines <$> contents p bs = Text.joinLines <$> flats p bs := by
        rw [map_joinLines, map_joinLines, joined_contents bs]
      have hc := congrArg (some <$> ·) hj
      simpa [content, flat, h, joined?_orEmpty] using hc
    · rw [content, if_neg h]
      exact ownContent_eq_flat p f bs h

theorem joined_contents : ∀ bs : List Block, joined? <$> contents p bs = joined? <$> flats p bs
  | [] => rfl
  | b :: bs => by
    rw [contents_cons_joined, flats_cons_joined, content_eq_flat b, joined_contents bs]
end

end Block

/-- A document is the join of all that its blocks add, however deep they are. -/
theorem Document.render_eq_flats {m : Type → Type} [Monad m] [LawfulMonad m] (p : Pipeline m)
    (d : Document) : d.render p = Text.joinLines <$> Block.flats p d.blocks := by
  have h : d.render p = Text.joinLines <$> Block.contents p d.blocks := by
    simp [render]
  rw [h, Block.map_joinLines, Block.map_joinLines, Block.joined_contents]

end BlockTree
