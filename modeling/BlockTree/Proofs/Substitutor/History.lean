import BlockTree.Proofs.Failure
import BlockTree.Proofs.Substitutor.Registry

/-! The registry after any sequence of registering, unregistering and loading. A history is told by
its bindings, and the registry is what the history says, whatever failed on the way. -/
namespace BlockTree

/-- What is done to a registry. A module is loaded from those at hand. -/
inductive Deed (σ : Type)
  | register (name : String) (o : Offer σ)
  | unregister (name : String)
  | load (plugins : List (Plugin σ)) (name : String)

variable {σ : Type}

namespace Plugin

variable {plugins : List (Plugin σ)} {m : String}

theorem exported_of_find {p : Plugin σ} (hm : ¬ ".".toList <+: m.toList)
    (hp : plugins.reverse.find? (·.name == m) = some p) : exported plugins m =
      p.exports.elim (.error (.noSubstitutions m)) fun es => .ok (Substitutor.mapping es) := by
  have hdot : m.startsWith "." = false := String.startsWith_string_eq_false_iff.2 hm
  have hfind : find plugins m = .ok p := by
    rw [find, hdot, hp]
    rfl
  refine (except_bind_of_ok hfind).trans ?_
  cases p.exports <;> rfl

theorem exported_of_absent (hm : ¬ ".".toList <+: m.toList) (hne : m ≠ "")
    (hp : plugins.reverse.find? (·.name == m) = none) :
    exported plugins m = .error (missing (plugins.map (·.name)) m.length m) := by
  have hdot : m.startsWith "." = false := String.startsWith_string_eq_false_iff.2 hm
  refine except_bind_error ?_
  rw [find, hdot, hp]
  simp [hne]

end Plugin

namespace Substitutor

def perform (s : Substitutor σ) : Deed σ → Substitutor σ × Except Failure Unit
  | .register name o => match s.register name o with
    | .ok s => (s, .ok ())
    | .error f => (s, .error f)
  | .unregister name => (s.unregister name, .ok ())
  | .load plugins name =>
    let (s, r) := Plugin.load plugins name s
    (s, r.map fun _ => ())

/-- All deeds in order, also after those that fail. -/
def after (s : Substitutor σ) (ds : List (Deed σ)) : Substitutor σ :=
  ds.foldl (fun s d => (s.perform d).1) s

/-- The bindings of offers, up to the first that cannot be called. -/
def bindings : List (String × Offer σ) → List (Binding σ)
  | (name, .callable f) :: rest => ⟨name, some f⟩ :: bindings rest
  | _ => []

end Substitutor

open Substitutor (bindings)

/-- What a deed binds and lets go if it fails at no place, or up to where it fails. -/
def Deed.bindings : Deed σ → List (Binding σ)
  | .register name o => Substitutor.bindings [(name, o)]
  | .unregister name => [⟨name, none⟩]
  | .load plugins name => match Plugin.exported plugins name with
    | .ok offers => Substitutor.bindings offers
    | .error _ => []

/-- The `i`-th binding is where a name came in: it stays from then on, and was not there before. -/
structure Entered (h : List (Binding σ)) (name : String) (i : Nat) : Prop where
  bound : ∃ f, h[i]? = some ⟨name, some f⟩
  kept : ∀ j : Nat, i < j → h[j]? ≠ some ⟨name, none⟩
  first : ∀ (j : Nat) f, j < i → h[j]? = some ⟨name, some f⟩ →
    ∃ k : Nat, j < k ∧ k < i ∧ h[k]? = some ⟨name, none⟩

structure Substitutor.Reflects (s : Substitutor σ) (h : List (Binding σ)) : Prop where
  nodup : s.names.Nodup
  mem_iff : ∀ name, name ∈ s.names ↔
    ∃ (i : Nat) (f : Substitution σ), h[i]? = some ⟨name, some f⟩ ∧
      ∀ j : Nat, i < j → h[j]? ≠ some ⟨name, none⟩
  find?_eq_iff : ∀ name f, s.find? name = some f ↔
    ∃ i : Nat, h[i]? = some ⟨name, some f⟩ ∧
      ∀ (j : Nat) (b : Binding σ), i < j → h[j]? = some b → b.name ≠ name
  ordered : ∃ place : String → Nat, (∀ name ∈ s.names, Entered h name (place name)) ∧
    s.names.Pairwise fun m n => place m < place n

section

variable {h : List (Binding σ)} {b c : Binding σ} {name : String} {i : Nat}

theorem getElem?_concat_eq_some_iff :
    (h ++ [b])[i]? = some c ↔ h[i]? = some c ∨ i = h.length ∧ b = c := by
  grind

theorem getElem?_concat_of_ne {o : Option (Substitution σ)} (hname : name ≠ b.name) :
    (h ++ [b])[i]? = some ⟨name, o⟩ ↔ h[i]? = some ⟨name, o⟩ := by
  rw [getElem?_concat_eq_some_iff, or_iff_left]
  rintro ⟨-, rfl⟩
  exact hname rfl

theorem lt_length_of_getElem? (hc : h[i]? = some c) : i < h.length :=
  (List.getElem?_eq_some_iff.1 hc).1

theorem Entered.lt (he : Entered h name i) : i < h.length := by
  obtain ⟨f, hf⟩ := he.bound
  exact lt_length_of_getElem? hf

theorem Entered.concat (he : Entered h name i) (hb : b ≠ ⟨name, none⟩) :
    Entered (h ++ [b]) name i where
  bound := by
    obtain ⟨f, hf⟩ := he.bound
    exact ⟨f, getElem?_concat_eq_some_iff.2 (.inl hf)⟩
  kept j hj hdrop := by
    obtain hdrop | ⟨-, rfl⟩ := getElem?_concat_eq_some_iff.1 hdrop
    · exact he.kept j hj hdrop
    · exact hb rfl
  first j f hj hf := by
    obtain hf | ⟨rfl, -⟩ := getElem?_concat_eq_some_iff.1 hf
    · obtain ⟨k, hjk, hki, hk⟩ := he.first j f hj hf
      exact ⟨k, hjk, hki, getElem?_concat_eq_some_iff.2 (.inl hk)⟩
    · exact absurd hj (Nat.lt_asymm he.lt)

theorem Entered.new {f : Substitution σ} (hb : b = ⟨name, some f⟩)
    (hout : ∀ (j : Nat) g, h[j]? = some ⟨name, some g⟩ →
      ∃ k : Nat, j < k ∧ h[k]? = some ⟨name, none⟩) :
    Entered (h ++ [b]) name h.length where
  bound := ⟨f, getElem?_concat_eq_some_iff.2 (.inr ⟨rfl, hb⟩)⟩
  kept j hj hdrop := by
    obtain hdrop | ⟨rfl, -⟩ := getElem?_concat_eq_some_iff.1 hdrop
    · exact Nat.lt_asymm hj (lt_length_of_getElem? hdrop)
    · exact Nat.lt_irrefl _ hj
  first j g hj hg := by
    obtain hg | ⟨rfl, -⟩ := getElem?_concat_eq_some_iff.1 hg
    · obtain ⟨k, hjk, hk⟩ := hout j g hg
      exact ⟨k, hjk, lt_length_of_getElem? hk, getElem?_concat_eq_some_iff.2 (.inl hk)⟩
    · exact absurd hj (Nat.lt_irrefl _)

end

namespace Substitutor.Reflects

variable {s : Substitutor σ} {h : List (Binding σ)} {b : Binding σ} {name : String}

theorem empty : (Substitutor.empty : Substitutor σ).Reflects [] where
  nodup := List.nodup_nil
  mem_iff name := by simp [names, Substitutor.empty]
  find?_eq_iff name f := by simp [find?, Substitutor.empty]
  ordered := ⟨fun _ => 0, List.forall_mem_nil _, .nil⟩

theorem freed_of_not_mem (hs : s.Reflects h) (hname : name ∉ s.names) (j : Nat)
    (g : Substitution σ) (hg : h[j]? = some ⟨name, some g⟩) :
    ∃ k : Nat, j < k ∧ h[k]? = some ⟨name, none⟩ :=
  Classical.byContradiction fun hnone =>
    hname ((hs.mem_iff name).2 ⟨j, g, hg, fun k hjk hk => hnone ⟨k, hjk, hk⟩⟩)

theorem mem_change_iff (hs : s.Reflects h) (name : String) :
    name ∈ (s.change b).names ↔
      ∃ (i : Nat) (f : Substitution σ), (h ++ [b])[i]? = some ⟨name, some f⟩ ∧
        ∀ j : Nat, i < j → (h ++ [b])[j]? ≠ some ⟨name, none⟩ := by
  rw [mem_names_change_iff]
  by_cases hname : name = b.name
  · subst hname
    rw [if_pos rfl]
    constructor
    · intro hbound
      obtain ⟨f, hf⟩ := Option.isSome_iff_exists.1 hbound
      refine ⟨h.length, f, getElem?_concat_eq_some_iff.2 (.inr ⟨rfl, ?_⟩), fun j hj => ?_⟩
      · rw [← hf]
      · rw [List.getElem?_eq_none (by simpa using Nat.succ_le_of_lt hj)]
        nofun
    · rintro ⟨i, f, hf, hkept⟩
      obtain hf | ⟨-, hb⟩ := getElem?_concat_eq_some_iff.1 hf
      · -- the last binding of the name is the new one, which does not let it go
        cases hbound : b.bound with
        | some g => rfl
        | none =>
          refine absurd ?_ (hkept h.length (lt_length_of_getElem? hf))
          rw [List.getElem?_concat_length, ← hbound]
      · rw [hb]
        rfl
  · rw [if_neg hname, hs.mem_iff]
    simp only [ne_eq, getElem?_concat_of_ne hname]

theorem find?_change_iff (hs : s.Reflects h) (name : String) (f : Substitution σ) :
    (s.change b).find? name = some f ↔
      ∃ i : Nat, (h ++ [b])[i]? = some ⟨name, some f⟩ ∧
        ∀ (j : Nat) (c : Binding σ), i < j → (h ++ [b])[j]? = some c → c.name ≠ name := by
  rw [find?_change]
  by_cases hname : name = b.name
  · subst hname
    rw [if_pos rfl]
    constructor
    · intro hf
      refine ⟨h.length, getElem?_concat_eq_some_iff.2 (.inr ⟨rfl, ?_⟩), fun j c hj hc => ?_⟩
      · rw [← hf]
      · rw [List.getElem?_eq_none (by simpa using Nat.succ_le_of_lt hj)] at hc
        cases hc
    · rintro ⟨i, hf, hlast⟩
      obtain hf | ⟨-, hb⟩ := getElem?_concat_eq_some_iff.1 hf
      · exact absurd rfl (hlast h.length b (lt_length_of_getElem? hf) List.getElem?_concat_length)
      · rw [hb]
  · rw [if_neg hname, hs.find?_eq_iff]
    refine exists_congr fun i => ?_
    rw [getElem?_concat_of_ne hname]
    refine and_congr_right fun _ => forall_congr' fun j => ?_
    constructor
    · intro hlast c hj hc hcname
      refine hlast c hj ((getElem?_concat_of_ne ?_).1 hc) hcname
      rwa [hcname]
    · exact fun hlast c hj hc => hlast c hj (getElem?_concat_eq_some_iff.2 (.inl hc))

theorem ordered_change (hs : s.Reflects h) :
    ∃ place : String → Nat, (∀ name ∈ (s.change b).names, Entered (h ++ [b]) name (place name)) ∧
      (s.change b).names.Pairwise fun m n => place m < place n := by
  obtain ⟨place, hplace, hpairs⟩ := hs.ordered
  cases hb : b.bound with
  | none =>
    rw [names_change_none hb]
    refine ⟨place, fun name hname => ?_, hpairs.filter _⟩
    obtain ⟨hname, hne⟩ := List.mem_filter.1 hname
    refine (hplace name hname).concat ?_
    rintro rfl
    simp at hne
  | some f =>
    have hkept {name : String} (hname : name ∈ s.names) : Entered (h ++ [b]) name (place name) := by
      refine (hplace name hname).concat ?_
      rintro rfl
      cases hb
    rw [names_change_some hb]
    split
    next hin => exact ⟨place, fun name hname => hkept hname, hpairs⟩
    next hout =>
      -- the new name comes in last
      obtain ⟨place', hnew, hold⟩ : ∃ place' : String → Nat, place' b.name = h.length ∧
          ∀ name ∈ s.names, place' name = place name :=
        ⟨fun name => if name = b.name then h.length else place name, if_pos rfl,
          fun name hname => if_neg fun heq : name = b.name => hout (heq ▸ hname)⟩
      refine ⟨place', fun name hname => ?_, ?_⟩
      · obtain hname | hname := List.mem_append.1 hname
        · rw [hold name hname]
          exact hkept hname
        · obtain rfl := List.mem_singleton.1 hname
          rw [hnew]
          exact Entered.new (by rw [← hb]) (hs.freed_of_not_mem hout)
      · refine List.pairwise_append.2 ⟨?_, List.pairwise_singleton .., fun m hm n hn => ?_⟩
        · refine hpairs.imp_of_mem fun {m n} hm hn hlt => ?_
          rwa [hold m hm, hold n hn]
        · obtain rfl := List.mem_singleton.1 hn
          rw [hold m hm, hnew]
          exact (hplace m hm).lt

theorem change (hs : s.Reflects h) (b : Binding σ) : (s.change b).Reflects (h ++ [b]) where
  nodup := by
    cases hb : b.bound with
    | none =>
      rw [names_change_none hb]
      exact hs.nodup.filter _
    | some f =>
      rw [names_change_some hb]
      split
      next => exact hs.nodup
      next hout => exact nodup_concat hs.nodup hout
  mem_iff := hs.mem_change_iff
  find?_eq_iff := hs.find?_change_iff
  ordered := hs.ordered_change

theorem replay (hs : s.Reflects h) (bs : List (Binding σ)) :
    (s.replay bs).Reflects (h ++ bs) := by
  induction bs generalizing s h with
  | nil => rwa [List.append_nil]
  | cons b bs ih =>
    rw [List.append_cons]
    exact ih (hs.change b)

end Substitutor.Reflects

namespace Substitutor

variable {s s' : Substitutor σ} {d : Deed σ} {f : Failure}

def offered (es : List (String × Substitution σ)) : List (String × Offer σ) :=
  es.map fun e => (e.1, .callable e.2)

def bound (es : List (String × Substitution σ)) : List (Binding σ) :=
  es.map fun e => ⟨e.1, some e.2⟩

inductive Fails (s : Substitutor σ) : Deed σ → Substitutor σ → Failure → Prop
  | inert (name : String) : Fails s (.register name .inert) s (.notCallable name)
  | missing {plugins : List (Plugin σ)} {name : String} {f : Failure} :
      Plugin.exported plugins name = .error f → Fails s (.load plugins name) s f
  | partway {plugins : List (Plugin σ)} {name bad : String} {es : List (String × Substitution σ)}
      {rest : List (String × Offer σ)} :
      Plugin.exported plugins name = .ok (offered es ++ (bad, .inert) :: rest) →
      Fails s (.load plugins name) (s.replay (bound es)) (.notCallable bad)

theorem registerAll_offered (s : Substitutor σ) (es : List (String × Substitution σ))
    (offers : List (String × Offer σ)) :
    s.registerAll (offered es ++ offers) = (s.replay (bound es)).registerAll offers := by
  induction es generalizing s with
  | nil => rfl
  | cons e es ih => exact ih (s.change ⟨e.1, some e.2⟩)

theorem bindings_offered (es : List (String × Substitution σ)) (offers : List (String × Offer σ)) :
    bindings (offered es ++ offers) = bound es ++ bindings offers := by
  induction es with
  | nil => rfl
  | cons e es ih => exact congrArg (⟨e.1, some e.2⟩ :: ·) ih

theorem offers_cases (offers : List (String × Offer σ)) :
    ∃ es, offers = offered es ∨ ∃ bad rest, offers = offered es ++ (bad, .inert) :: rest := by
  induction offers with
  | nil => exact ⟨[], .inl rfl⟩
  | cons o offers ih =>
    match o with
    | (name, .inert) => exact ⟨[], .inr ⟨name, offers, rfl⟩⟩
    | (name, .callable f) =>
      obtain ⟨es, rfl | ⟨bad, rest, rfl⟩⟩ := ih
      · exact ⟨(name, f) :: es, .inl rfl⟩
      · exact ⟨(name, f) :: es, .inr ⟨bad, rest, rfl⟩⟩

theorem registerAll_fst (s : Substitutor σ) (offers : List (String × Offer σ)) :
    (s.registerAll offers).1 = s.replay (bindings offers) := by
  obtain ⟨es, rfl | ⟨bad, rest, rfl⟩⟩ := offers_cases offers
  · rw [← List.append_nil (offered es), registerAll_offered, bindings_offered, replay_append]
    rfl
  · simp only [registerAll_offered, bindings_offered, replay_append]
    rfl

section

variable {plugins : List (Plugin σ)} {name : String} {offers : List (String × Offer σ)}

theorem perform_load_error (h : Plugin.exported plugins name = .error f) (s : Substitutor σ) :
    s.perform (.load plugins name) = (s, .error f) := by
  simp only [perform, Plugin.load, h]
  rfl

theorem perform_load_ok (h : Plugin.exported plugins name = .ok offers) (s : Substitutor σ) :
    s.perform (.load plugins name) = s.registerAll offers := by
  simp only [perform, Plugin.load, h]
  refine Prod.ext rfl ?_
  cases (s.registerAll offers).2 <;> rfl

end

theorem registerAll_inert (s : Substitutor σ) (es : List (String × Substitution σ)) (bad : String)
    (rest : List (String × Offer σ)) :
    s.registerAll (offered es ++ (bad, .inert) :: rest) =
      (s.replay (bound es), .error (.notCallable bad)) := by
  rw [registerAll_offered]
  rfl

theorem registerAll_callable (s : Substitutor σ) (es : List (String × Substitution σ)) :
    s.registerAll (offered es) = (s.replay (bound es), .ok ()) := by
  rw [← List.append_nil (offered es), registerAll_offered]
  rfl

/-- A deed does what its bindings say, also where it fails. -/
theorem perform_fst (s : Substitutor σ) (d : Deed σ) : (s.perform d).1 = s.replay d.bindings := by
  cases d with
  | register name o => cases o <;> rfl
  | unregister name => rfl
  | load plugins name =>
    rw [Deed.bindings]
    cases h : Plugin.exported plugins name with
    | error f => rw [perform_load_error h]; rfl
    | ok offers => rw [perform_load_ok h]; exact registerAll_fst s offers

theorem after_eq_replay (s : Substitutor σ) (ds : List (Deed σ)) :
    s.after ds = s.replay (ds.flatMap Deed.bindings) := by
  induction ds generalizing s with
  | nil => rfl
  | cons d ds ih =>
    rw [List.flatMap_cons, replay_append, ← perform_fst]
    exact ih (s.perform d).1

theorem perform_eq_error_iff : s.perform d = (s', .error f) ↔ s.Fails d s' f := by
  constructor
  · intro h
    cases d with
    | register name o =>
      cases o with
      | inert =>
        cases h
        exact .inert name
      | callable g => cases h
    | unregister name => cases h
    | load plugins name =>
      cases hexported : Plugin.exported plugins name with
      | error g =>
        rw [perform_load_error hexported] at h
        cases h
        exact .missing hexported
      | ok offers =>
        rw [perform_load_ok hexported] at h
        obtain ⟨es, rfl | ⟨bad, rest, rfl⟩⟩ := offers_cases offers
        · rw [registerAll_callable] at h
          cases h
        · rw [registerAll_inert] at h
          cases h
          exact .partway hexported
  · intro h
    cases h with
    | inert name => rfl
    | missing h => exact perform_load_error h s
    | partway h => rw [perform_load_ok h, registerAll_inert]

theorem replay_of_ofList {offers : List (String × Offer σ)} (h : ofList offers = .ok s) :
    s = empty.replay (bindings (mapping offers)) := by
  rw [← registerAll_fst]
  simp only [ofList] at h
  cases hr : (empty.registerAll (mapping offers)).2 with
  | error f =>
    rw [hr] at h
    cases h
  | ok u =>
    rw [hr] at h
    cases h
    rfl

/-- A registry made from a mapping is, after any deeds, what their history says. A deed that fails
leaves it as it is, but for a module that offers something that cannot be called: all that comes
before is registered then. -/
theorem after_reflects {given : List (String × Offer σ)} (h : ofList given = .ok s)
    (ds : List (Deed σ)) :
    (s.after ds).Reflects (bindings (mapping given) ++ ds.flatMap Deed.bindings) ∧
      (∀ d s' f, (s.after ds).perform d = (s', .error f) ↔ (s.after ds).Fails d s' f) ∧
      ∀ bad, (Failure.notCallable bad).category = .type := by
  refine ⟨?_, fun _ _ _ => perform_eq_error_iff, fun _ => rfl⟩
  rw [after_eq_replay, replay_of_ofList h, ← replay_append]
  exact Reflects.empty.replay _

def mark (m : String) : Offer Unit := .callable fun text => pure (text ++ m)

def marks : List (Plugin Unit) :=
  [⟨"marks", some [("b", mark "2"), ("c", mark "3"), ("d", .inert), ("e", mark "5")]⟩]

def relabelling : List (Deed Unit) :=
  [.unregister "a", .load marks "gone", .load marks "marks", .register "a" (mark "6"),
    .register "b" (mark "7"), .register "c" .inert]

theorem after_reflects_relabelling :
    ∃ s, ofList [("a", mark "0"), ("b", mark "1")] = .ok s ∧
      (s.after relabelling).names = ["b", "c", "a"] ∧
      (relabelling.flatMap Deed.bindings).map (·.name) = ["a", "b", "c", "a", "b"] ∧
      (s.after relabelling).Reflects
        (bindings (mapping [("a", mark "0"), ("b", mark "1")]) ++
          relabelling.flatMap Deed.bindings) ∧
      (s.after relabelling).Fails (.register "c" .inert) (s.after relabelling)
        (.notCallable "c") := by
  have hgone : Plugin.exported marks "gone" = .error (.noModule "gone") := by
    rw [Plugin.exported_of_absent (by decide) (by decide) rfl]
    rfl
  have hmarks : Plugin.exported marks "marks" =
      .ok [("b", mark "2"), ("c", mark "3"), ("d", .inert), ("e", mark "5")] := by
    rw [Plugin.exported_of_find (by decide) rfl]
    rfl
  have hbindings : relabelling.flatMap Deed.bindings =
      ⟨"a", none⟩ ::
        bindings [("b", mark "2"), ("c", mark "3"), ("a", mark "6"), ("b", mark "7")] := by
    simp only [relabelling, List.flatMap_cons, Deed.bindings, hgone, hmarks]
    rfl
  obtain ⟨hreflects, hfails, -⟩ :=
    after_reflects (rfl : ofList [("a", mark "0"), ("b", mark "1")] = .ok _) relabelling
  refine ⟨_, rfl, ?_, ?_, hreflects, (hfails ..).1 rfl⟩
  · rw [after_eq_replay, hbindings]
    rfl
  · rw [hbindings]
    rfl

end Substitutor

end BlockTree
