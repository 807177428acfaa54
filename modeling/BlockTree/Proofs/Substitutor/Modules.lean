import Mathlib.Data.List.Induction
import BlockTree.CommandLine.Program
import BlockTree.Proofs.Failure
import BlockTree.Proofs.Substitutor.History
import BlockTree.Proofs.Substitutor.NameLists

/-! The registry that a list of modules gives. Of modules that export the same name the last one
counts, the name stays where it came in, and the first module that fails is the one that is named.
-/
namespace BlockTree

variable {σ : Type}

abbrev Exports (σ : Type) := String × List (String × Substitution σ)

namespace Exports

def names (x : Exports σ) : List String := x.2.map (·.1)

end Exports

namespace Substitutor

theorem nodup_mapping (offers : List (String × Offer σ)) :
    ((mapping offers).map (·.1)).Nodup := by
  induction offers using List.reverseRecOn with
  | nil => exact List.nodup_nil
  | append_singleton offers e ih =>
    rw [mapping, List.foldl_append, List.foldl_cons, List.foldl_nil,
      map_fst_of_put (p := mapping.put e.1 e.2) rfl fun _ _ _ => rfl]
    split
    next => exact ih
    next hout => exact nodup_concat ih hout

theorem find?_replay_bound {es : List (String × Substitution σ)} (h : (es.map (·.1)).Nodup)
    (s : Substitutor σ) (name : String) (f : Substitution σ) :
    (s.replay (bound es)).find? name = some f ↔
      (name, f) ∈ es ∨ name ∉ es.map (·.1) ∧ s.find? name = some f := by
  induction es generalizing s with
  | nil => simp [bound, replay]
  | cons e es ih =>
    obtain ⟨n, g⟩ := e
    obtain ⟨hout, hes⟩ := List.nodup_cons.1 h
    refine (ih hes (s.change ⟨n, some g⟩)).trans ?_
    simp only [find?_change, List.map_cons, List.mem_cons, Prod.mk.injEq]
    by_cases hname : name = n
    · subst hname
      have hfirst : (name, f) ∉ es := fun hmem => hout (List.mem_map.2 ⟨(name, f), hmem, rfl⟩)
      simp only [hfirst, if_true, true_and, not_true_eq_false, not_or, false_and, or_false,
        false_or, Option.some.injEq]
      exact ⟨fun hlast => hlast.2.symm, fun hf => ⟨hout, hf.symm⟩⟩
    · simp [hname]

@[simp]
theorem removeAll_singleton (name : String) (names : List String) :
    [name].removeAll names = if name ∈ names then [] else [name] := by
  simp [List.removeAll, List.filter_cons]

theorem names_replay {bs : List (Binding σ)} (h : ∀ b ∈ bs, b.bound.isSome = true) :
    (empty.replay bs).names = (bs.map (·.name)).eraseDups := by
  induction bs using List.reverseRecOn with
  | nil => rfl
  | append_singleton bs b ih =>
    obtain ⟨hbs, hb⟩ := List.forall_mem_append.1 h
    obtain ⟨f, hf⟩ := Option.isSome_iff_exists.1 (hb b List.mem_cons_self)
    rw [replay_concat, names_change_some hf, ih hbs]
    by_cases hin : b.name ∈ bs.map (·.name) <;>
      simp [List.eraseDups_append, List.eraseDups_cons, hin]

end Substitutor

namespace Plugin

variable {plugins : List (Plugin σ)} {x : Exports σ} {xs : List (Exports σ)} {m : String}
  {f : Failure}

def Loads (plugins : List (Plugin σ)) (x : Exports σ) : Prop :=
  exported plugins x.1 = .ok (Substitutor.offered x.2)

inductive Breaks (plugins : List (Plugin σ)) (m : String) : Failure → Prop
  | missing {f : Failure} : exported plugins m = .error f → Breaks plugins m f
  | inert {es : List (String × Substitution σ)} {bad : String} {rest : List (String × Offer σ)} :
      exported plugins m = .ok (Substitutor.offered es ++ (bad, .inert) :: rest) →
      Breaks plugins m (.notCallable bad)

theorem load_of_loads (h : Loads plugins x) (s : Substitutor σ) :
    load plugins x.1 s = (s.replay (Substitutor.bound x.2), .ok (.loaded x.1 x.names)) := by
  have hnames : (Substitutor.offered x.2).map (·.1) = x.names := List.map_map
  rw [load, h]
  simp only [Substitutor.registerAll_callable, hnames]
  rfl

theorem load_of_breaks (h : Breaks plugins m f) (s : Substitutor σ) :
    ∃ s', load plugins m s = (s', .error f) := by
  cases h with
  | missing h => exact ⟨s, by rw [load, h]⟩
  | @inert es bad rest h =>
    refine ⟨s.replay (Substitutor.bound es), ?_⟩
    rw [load, h]
    simp only [Substitutor.registerAll_inert]
    rfl

theorem loads_or_breaks (plugins : List (Plugin σ)) (m : String) :
    (∃ es, Loads plugins (m, es)) ∨ ∃ f, Breaks plugins m f := by
  cases h : exported plugins m with
  | error f => exact .inr ⟨f, .missing h⟩
  | ok offers =>
    obtain ⟨es, rfl | ⟨bad, rest, rfl⟩⟩ := Substitutor.offers_cases offers
    · exact .inl ⟨es, h⟩
    · exact .inr ⟨.notCallable bad, .inert h⟩

def loadedNotices (xs : List (Exports σ)) : List Notice := xs.map fun x => .loaded x.1 x.names

def boundAll (xs : List (Exports σ)) : List (Binding σ) := xs.flatMap fun x => Substitutor.bound x.2

theorem loadAll_append {xs : List (Exports σ)} (hxs : ∀ x ∈ xs, Loads plugins x)
    (ms : List String) (s : Substitutor σ) (e : Effects σ) :
    (loadAll plugins (xs.map (·.1) ++ ms) s).run e =
      (loadAll plugins ms (s.replay (boundAll xs))).run ⟨e.state, e.log ++ loadedNotices xs⟩ := by
  induction xs generalizing s e with
  | nil =>
    have hlog : e.log ++ loadedNotices ([] : List (Exports σ)) = e.log := List.append_nil e.log
    rw [hlog]
    rfl
  | cons x xs ih =>
    obtain ⟨hx, hxs⟩ := List.forall_mem_cons.1 hxs
    have hrest := ih hxs (s.replay (Substitutor.bound x.2))
      ⟨e.state, e.log ++ [.loaded x.1 x.names]⟩
    rw [List.append_assoc, ← Substitutor.replay_append] at hrest
    rw [List.map_cons, List.cons_append, loadAll, load_of_loads hx]
    exact hrest

theorem loadAll_loads {xs : List (Exports σ)} (hxs : ∀ x ∈ xs, Loads plugins x)
    (s : Substitutor σ) (e : Effects σ) :
    (loadAll plugins (xs.map (·.1)) s).run e =
      (.ok (s.replay (boundAll xs)), ⟨e.state, e.log ++ loadedNotices xs⟩) := by
  rw [← List.append_nil (xs.map _), loadAll_append hxs]
  rfl

theorem loadAll_breaks {xs : List (Exports σ)} (hxs : ∀ x ∈ xs, Loads plugins x)
    (hm : Breaks plugins m f) (rest : List String) (s : Substitutor σ) (e : Effects σ) :
    (loadAll plugins (xs.map (·.1) ++ m :: rest) s).run e =
      (.error (m, f), ⟨e.state, e.log ++ loadedNotices xs⟩) := by
  obtain ⟨s', hs'⟩ := load_of_breaks hm (s.replay (boundAll xs))
  rw [loadAll_append hxs, loadAll, hs']
  rfl

theorem modules_cases (plugins : List (Plugin σ)) (ms : List String) :
    ∃ xs : List (Exports σ), (∀ x ∈ xs, Loads plugins x) ∧
      (ms = xs.map (·.1) ∨ ∃ m f rest, ms = xs.map (·.1) ++ m :: rest ∧ Breaks plugins m f) := by
  induction ms with
  | nil => exact ⟨[], List.forall_mem_nil _, .inl rfl⟩
  | cons m ms ih =>
    obtain ⟨es, hm⟩ | ⟨f, hm⟩ := loads_or_breaks plugins m
    · obtain ⟨xs, hxs, rfl | ⟨k, f, rest, rfl, hk⟩⟩ := ih
      · exact ⟨(m, es) :: xs, List.forall_mem_cons.2 ⟨hm, hxs⟩, .inl rfl⟩
      · exact ⟨(m, es) :: xs, List.forall_mem_cons.2 ⟨hm, hxs⟩, .inr ⟨k, f, rest, rfl, hk⟩⟩
    · exact ⟨[], List.forall_mem_nil _, .inr ⟨m, f, ms, rfl, hm⟩⟩

theorem Loads.nodup {x : Exports σ} (h : Loads plugins x) : x.names.Nodup := by
  rw [Loads, exported] at h
  obtain ⟨p, -, h⟩ := except_bind_ok h
  split at h
  next offers _ =>
    have hnames : x.names = (Substitutor.offered x.2).map (·.1) := by
      rw [Substitutor.offered, List.map_map]
      rfl
    rw [hnames, ← Except.ok.inj h]
    exact Substitutor.nodup_mapping offers
  next => cases h

/-- The function that the last module with that name exports under it. -/
def LastExport (xs : List (Exports σ)) (name : String) (f : Substitution σ) : Prop :=
  ∃ before x after, xs = before ++ x :: after ∧ (name, f) ∈ x.2 ∧ ∀ k ∈ after, name ∉ k.names

theorem lastExport_cons {x : Exports σ} {name : String} {f : Substitution σ} :
    LastExport (x :: xs) name f ↔
      LastExport xs name f ∨ (name, f) ∈ x.2 ∧ ∀ k ∈ xs, name ∉ k.names := by
  constructor
  · rintro ⟨before, y, after, heq, hmem, hlast⟩
    cases before with
    | nil =>
      cases heq
      exact .inr ⟨hmem, hlast⟩
    | cons z before =>
      cases heq
      exact .inl ⟨before, y, after, rfl, hmem, hlast⟩
  · rintro (⟨before, y, after, rfl, hmem, hlast⟩ | ⟨hmem, hlast⟩)
    · exact ⟨x :: before, y, after, rfl, hmem, hlast⟩
    · exact ⟨[], x, xs, rfl, hmem, hlast⟩

theorem find?_replay_boundAll (h : ∀ x ∈ xs, x.names.Nodup) (s : Substitutor σ) (name : String)
    (f : Substitution σ) :
    (s.replay (boundAll xs)).find? name = some f ↔
      LastExport xs name f ∨ (∀ x ∈ xs, name ∉ x.names) ∧ s.find? name = some f := by
  induction xs generalizing s with
  | nil => simp [boundAll, LastExport, Substitutor.replay]
  | cons x xs ih =>
    obtain ⟨hx, hxs⟩ := List.forall_mem_cons.1 h
    have hsplit : boundAll (x :: xs) = Substitutor.bound x.2 ++ boundAll xs := rfl
    rw [hsplit, Substitutor.replay_append, ih hxs, Substitutor.find?_replay_bound hx,
      lastExport_cons, List.forall_mem_cons, or_assoc]
    refine or_congr_right ?_
    rw [and_or_left, and_comm, ← and_assoc]
    exact or_congr_right (and_congr_left fun _ => and_comm)

theorem names_replay_boundAll (xs : List (Exports σ)) :
    (Substitutor.empty.replay (boundAll xs)).names = (xs.flatMap Exports.names).eraseDups := by
  rw [Substitutor.names_replay, boundAll, List.map_flatMap]
  · congr 2
    exact funext fun x => List.map_map
  · intro b hb
    obtain ⟨x, -, hb⟩ := List.mem_flatMap.1 hb
    obtain ⟨e, -, rfl⟩ := List.mem_map.1 hb
    rfl

/-- Loading fails exactly at the first module that cannot be loaded. -/
theorem loadAll_eq_error_iff {ms : List String} {s : Substitutor σ} {e e' : Effects σ} :
    (loadAll plugins ms s).run e = (.error (m, f), e') ↔
      ∃ xs rest, ms = xs.map (·.1) ++ m :: rest ∧ (∀ x ∈ xs, Loads plugins x) ∧
        Breaks plugins m f ∧ e' = ⟨e.state, e.log ++ loadedNotices xs⟩ := by
  constructor
  · intro h
    obtain ⟨xs, hxs, rfl | ⟨k, g, rest, rfl, hk⟩⟩ := modules_cases plugins ms
    · rw [loadAll_loads hxs] at h
      cases h
    · rw [loadAll_breaks hxs hk] at h
      cases h
      exact ⟨xs, rest, rfl, hxs, hk, rfl⟩
  · rintro ⟨xs, rest, rfl, hxs, hm, rfl⟩
    exact loadAll_breaks hxs hm rest s e

theorem loadAll_empty (hxs : ∀ x ∈ xs, Loads plugins x) (e : Effects σ) :
    ∃ s : Substitutor σ, (loadAll plugins (xs.map (·.1)) .empty).run e =
        (.ok s, ⟨e.state, e.log ++ loadedNotices xs⟩) ∧
      (∀ name f, s.find? name = some f ↔ LastExport xs name f) ∧
      s.names = (xs.flatMap Exports.names).eraseDups := by
  refine ⟨_, loadAll_loads hxs .empty e, fun name f => ?_, names_replay_boundAll xs⟩
  -- nothing is bound before the first module
  rw [find?_replay_boundAll fun x hx => (hxs x hx).nodup]
  simp [Substitutor.find?, Substitutor.empty]

end Plugin

namespace CommandLine

open Plugin (splitNames loadAll Loads Breaks LastExport loadedNotices)

theorem load_breaks {x : Setting} {xs : List (Exports Tally)} {m : String} {f : Failure}
    (hxs : ∀ k ∈ xs, Loads x.plugins k) (hm : Breaks x.plugins m f)
    (hf : f.category = .plugin ∨ f.category = .member) (l : Logging) (definition : String)
    (rest : List String) (c : Console) :
    (load x l definition (xs.map (·.1) ++ m :: rest) c).1 =
      .error (.message ("Cannot load substitutions from " ++ m ++ ": " ++ f.message)) := by
  have hending : moduleEnding m f =
      .message ("Cannot load substitutions from " ++ m ++ ": " ++ f.message) := by
    obtain hf | hf := hf <;> simp [moduleEnding, hf]
  rw [load, Plugin.loadAll_breaks hxs hm, ← hending]

/-- However module names are spread over lists they are read as they were written, and what is read
holds nothing but names. Of modules that all load, the last one that exports a name decides it, and
the names stand as they first come; otherwise the first module that cannot be loaded ends it, and it
is named if it is missing or exports no mapping. -/
theorem modules_agree :
    (∀ ms lists, Spread ms lists → splitNames lists = ms) ∧
      (∀ lists, splitNames (splitNames lists) = splitNames lists) ∧
      (∀ lists more, splitNames (lists ++ more) = splitNames lists ++ splitNames more) ∧
      (∀ lists, ∀ m ∈ splitNames lists, IsModuleName m) ∧
      (∀ (plugins : List (Plugin σ)) (xs : List (Exports σ)) (e : Effects σ),
        (∀ x ∈ xs, Loads plugins x) →
        ∃ s : Substitutor σ, (loadAll plugins (xs.map (·.1)) .empty).run e =
            (.ok s, ⟨e.state, e.log ++ loadedNotices xs⟩) ∧
          (∀ name f, s.find? name = some f ↔ LastExport xs name f) ∧
          s.names = (xs.flatMap Exports.names).eraseDups) ∧
      (∀ (plugins : List (Plugin σ)) ms e m f e',
        (loadAll plugins ms .empty).run e = (.error (m, f), e') ↔
          ∃ xs rest, ms = xs.map (·.1) ++ m :: rest ∧ (∀ x ∈ xs, Loads plugins x) ∧
            Breaks plugins m f ∧ e' = ⟨e.state, e.log ++ loadedNotices xs⟩) ∧
      ∀ (x : Setting) (xs : List (Exports Tally)) m f l definition rest c,
        (∀ k ∈ xs, Loads x.plugins k) → Breaks x.plugins m f →
        f.category = .plugin ∨ f.category = .member →
        (load x l definition (xs.map (·.1) ++ m :: rest) c).1 =
          .error (.message ("Cannot load substitutions from " ++ m ++ ": " ++ f.message)) :=
  ⟨fun _ _ => Plugin.splitNames_of_spread, Plugin.splitNames_splitNames, Plugin.splitNames_append,
    fun _ _ => Plugin.isModuleName_of_mem_splitNames, fun _ _ e hxs => Plugin.loadAll_empty hxs e,
    fun _ _ _ _ _ _ => Plugin.loadAll_eq_error_iff,
    fun _ _ _ _ l definition rest c hxs hm hf => load_breaks hxs hm hf l definition rest c⟩

def stamp (m : String) : Substitution Tally := fun text => pure (text ++ m)

def stamps : List (Plugin Tally) :=
  [⟨"round", some (Substitutor.offered [("a", stamp "1"), ("b", stamp "2")])⟩,
    ⟨"square", some (Substitutor.offered [("c", stamp "3"), ("a", stamp "4")])⟩, ⟨"bare", none⟩]

theorem modules_agree_stamps :
    Plugin.splitNames [" round ,,square", "", "bare\t"] = ["round", "square", "bare"] ∧
      (∃ s : Substitutor Tally,
        (loadAll stamps ["round", "square"] .empty).run ⟨.fresh, []⟩ =
          (.ok s, ⟨.fresh, [.loaded "round" ["a", "b"], .loaded "square" ["c", "a"]]⟩) ∧
        s.find? "a" = some (stamp "4") ∧ s.names = ["a", "b", "c"]) ∧
      (load ⟨.narrow, ⟨none, none⟩, stamps, .fresh⟩ ⟨.info, none⟩ "" ["round", "bare", "gone"]
        ⟨"", ⟨[], []⟩⟩).1 = .error (.message ("Cannot load substitutions from bare: " ++
          "module 'bare' has no attribute 'SUBSTITUTIONS'")) := by
  obtain ⟨hspread, -, -, hname, hload, -, hbreak⟩ := modules_agree (σ := Tally)
  have hround : Loads stamps ("round", [("a", stamp "1"), ("b", stamp "2")]) := by
    rw [Loads, Plugin.exported_of_find (by decide) rfl]
    rfl
  have hsquare : Loads stamps ("square", [("c", stamp "3"), ("a", stamp "4")]) := by
    rw [Loads, Plugin.exported_of_find (by decide) rfl]
    rfl
  have hbare : Breaks stamps "bare" (.noSubstitutions "bare") := by
    refine .missing ?_
    rw [Plugin.exported_of_find (by decide) rfl]
    rfl
  refine ⟨?_, ?_, ?_⟩
  · have hround : IsModuleName "round" := hname ["round"] _ (by decide)
    have hsquare : IsModuleName "square" := hname ["square"] _ (by decide)
    have hbare : IsModuleName "bare" := hname ["bare"] _ (by decide)
    have hfirst : ∀ i ∈ [(some "round", " " ++ "round" ++ " "), (none, ""),
        (some "square", "" ++ "square" ++ "")], ListItem i.1 i.2 := by
      simp only [List.forall_mem_cons]
      exact ⟨.name hround rfl rfl, .blank rfl, .name hsquare rfl rfl, List.forall_mem_nil _⟩
    have hlast : ∀ i ∈ [(some "bare", "" ++ "bare" ++ "\t")], ListItem i.1 i.2 :=
      List.forall_mem_singleton.2 (.name hbare rfl rfl)
    have hblank : ∀ i ∈ [((none : Option String), "")], ListItem i.1 i.2 :=
      List.forall_mem_singleton.2 (.blank rfl)
    exact hspread _ _ (.cons hfirst (.cons hblank (.cons hlast .nil)))
  · obtain ⟨s, hrun, hfind, hnames⟩ := hload stamps [_, _] ⟨.fresh, []⟩
      (List.forall_mem_cons.2 ⟨hround, List.forall_mem_singleton.2 hsquare⟩)
    refine ⟨s, hrun, (hfind ..).2 ⟨[_], _, [], rfl, ?_, List.forall_mem_nil _⟩, ?_⟩
    · simp
    · rw [hnames]
      decide
  · have hstop := hbreak ⟨.narrow, ⟨none, none⟩, stamps, .fresh⟩ [_] "bare" _ ⟨.info, none⟩ ""
      ["gone"] ⟨"", ⟨[], []⟩⟩ (List.forall_mem_singleton.2 hround) hbare (.inr rfl)
    have hmessage : "Cannot load substitutions from " ++ "bare" ++ ": " ++
        (Failure.noSubstitutions "bare").message = "Cannot load substitutions from bare: " ++
          "module 'bare' has no attribute 'SUBSTITUTIONS'" := by
      decide
    rw [List.map_singleton, List.singleton_append, hmessage] at hstop
    exact hstop

end CommandLine

end BlockTree
