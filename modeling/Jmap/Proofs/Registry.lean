import Jmap.Client.Builder
import Jmap.Proofs.Client.Lifetime
import Jmap.Proofs.SortedMap
import Jmap.Registry.Shared
import Mathlib.Data.List.Dedup

/-! Registries under any history. What a registry finds for a method is what was registered
or merged into it last, however many registries there are and whatever they share. -/
namespace Jmap

/-- A registry to which these decoders were given one after the other, and no others: the
last one under a name is found, and each name is there and is shown once, in its place among the others. -/
structure Registry.Follows {A : Type} (registry : Registry A) (history : List (String × Decoder A)) : Prop where
  found : ∀ method, registry.decoder? method = history.reverse.lookup method
  size : registry.size = (history.map Prod.fst).dedup.length
  shown : ∃ names : List String, names.Pairwise (· < ·) ∧ (∀ method, method ∈ names ↔ method ∈ history.map Prod.fst) ∧
    registry.display = "Registry \x7b methods: [" ++ String.intercalate ", " (names.map Text.quoted) ++ "] \x7d"

namespace Registry
variable {A : Type} {registry other : Registry A} {history later : List (String × Decoder A)}

theorem follows_of_found (found : ∀ method, registry.decoder? method = history.reverse.lookup method) :
    registry.Follows history := by
  have listed (method : String) : method ∈ registry.keys ↔ method ∈ history.map Prod.fst := by
    rw [SortedMap.mem_keys_iff,← decoder?,found,SortedMap.lookup_isSome,List.map_reverse,List.mem_reverse]
  refine ⟨found,?_,registry.keys,?_,listed,rfl⟩
  · have same : registry.keys.Perm (history.map Prod.fst).dedup :=
      (List.perm_ext_iff_of_nodup (SortedMap.keys_nodup registry) (List.nodup_dedup _)).mpr fun method => by
        rw [List.mem_dedup,listed]
    rw [← same.length_eq,SortedMap.keys,List.length_map]
    rfl
  · rw [SortedMap.keys,List.pairwise_map]
    exact registry.sorted

theorem follows_empty : Follows (A := A) .empty [] := follows_of_found fun _ => rfl

/-- What comes of a merge is what both were given, one after the other. -/
theorem Follows.merge (follows : registry.Follows history) (others : other.Follows later) :
    Follows (registry.merge other) (history ++ later) := by
  refine follows_of_found fun method => ?_
  rw [decoder?,SortedMap.find?_merge,List.reverse_append,List.lookup_append,← follows.found,← others.found]
  rfl

theorem Follows.insert (follows : registry.Follows history) (method : String) (decoder : Decoder A) :
    Follows (registry.insert method decoder) (history ++ [(method,decoder)]) := by
  refine follows_of_found fun name => ?_
  rw [decoder?,SortedMap.find?_insert,List.reverse_concat,SortedMap.lookup_entry,← follows.found]
  rfl

theorem follows_entries (registry : Registry A) : registry.Follows registry.entries := by
  refine follows_of_found fun method => ?_
  rw [SortedMap.lookup_reverse (SortedMap.keys_nodup registry)]
  rfl

end Registry

namespace Registries
variable {A : Type} {registries : Registries A} {name other : String}

/-- Nothing points outside the cells. -/
def IsClosed (registries : Registries A) : Prop :=
  ∀ name cell, registries.owned.find? name = some cell → cell < registries.cells.length

theorem eq_of_owners {cell : Nat} (alone : registries.owners cell = 1) (here : registries.owned.find? name = some cell)
    (there : registries.owned.find? other = some cell) : name = other := by
  rw [owners,List.countP_eq_length_filter,List.length_eq_one_iff] at alone
  obtain ⟨entry,only⟩ := alone
  have own {key : String} (found : registries.owned.find? key = some cell) : (key,cell) = entry := by
    have member : (key,cell) ∈ registries.owned.entries.filter (·.2 == cell) :=
      List.mem_filter.mpr ⟨SortedMap.mem_of_lookup found,beq_self_eq_true cell⟩
    rw [only] at member
    exact List.mem_singleton.mp member
  exact congrArg Prod.fst ((own here).trans (own there).symm)

theorem named?_of_fresh (closed : registries.IsClosed) (registry : Registry A) :
    (Registries.mk (registries.cells ++ [registry]) (registries.owned.insert name registries.cells.length)).named? other =
      if other = name then some registry else registries.named? other := by
  unfold named?
  rw [SortedMap.find?_insert]
  split
  · simp
  · cases found : registries.owned.find? other with
    | none => rfl
    | some cell =>
      have inside := closed other cell found
      simp [List.getElem?_append_left inside]

theorem isClosed_of_fresh (closed : registries.IsClosed) (registry : Registry A) (name : String) :
    (Registries.mk (registries.cells ++ [registry]) (registries.owned.insert name registries.cells.length)).IsClosed := by
  intro other cell found
  rw [SortedMap.find?_insert] at found
  rw [List.length_append,List.length_singleton]
  split at found
  · cases found
    exact Nat.lt_succ_self _
  · exact Nat.lt_succ_of_lt (closed other cell found)

/-- Writing either takes a fresh cell or meets no other owner. -/
theorem write_cases (closed : registries.IsClosed) {cell : Nat} (here : registries.owned.find? name = some cell)
    (change : Registry A → Registry A) :
    ∃ registry, registries.named? name = some registry ∧
      ((registries.owners cell = 1 ∧
          registries.write name change = {registries with cells := registries.cells.modify cell change}) ∨
        registries.write name change =
          ⟨registries.cells ++ [change registry],registries.owned.insert name registries.cells.length⟩) := by
  have inside := closed name cell here
  have present : registries.cells[cell]? = some registries.cells[cell] := List.getElem?_eq_getElem inside
  refine ⟨registries.cells[cell],by rw [named?,here,Option.bind_some,present],?_⟩
  simp only [write,here]
  by_cases alone : registries.owners cell = 1
  · exact .inl ⟨alone,if_pos alone⟩
  · refine .inr ?_
    rw [if_neg alone,present]
    rfl

theorem named?_write (closed : registries.IsClosed) (name other : String) (change : Registry A → Registry A) :
    (registries.write name change).named? other =
      if other = name then (registries.named? name).map change else registries.named? other := by
  cases here : registries.owned.find? name with
  | none =>
    simp only [write,here]
    split
    next same => simp [same,named?,here]
    next => rfl
  | some cell =>
    obtain ⟨registry,known,⟨alone,written⟩ | written⟩ := write_cases closed here change
    · rw [written]
      split
      next same =>
        simp [same,named?,here,List.getElem?_modify_eq]
      next different =>
        unfold named?
        cases there : registries.owned.find? other with
        | none => rfl
        | some elsewhere =>
          -- Another owner of the cell would have made the writer take a copy.
          have apart : cell ≠ elsewhere := by
            rintro rfl
            exact different (eq_of_owners alone there here)
          exact List.getElem?_modify_ne _ _ apart
    · rw [written,named?_of_fresh closed,known]
      rfl

theorem isClosed_write (closed : registries.IsClosed) (name : String) (change : Registry A → Registry A) :
    (registries.write name change).IsClosed := by
  cases here : registries.owned.find? name with
  | none =>
    simp only [write,here]
    exact closed
  | some cell =>
    obtain ⟨registry,_,⟨_,written⟩ | written⟩ := write_cases closed here change
    · rw [written]
      intro other cell found
      rw [List.length_modify]
      exact closed other cell found
    · rw [written]
      exact isClosed_of_fresh closed _ name

theorem named?_clone (closed : registries.IsClosed) (source target other : String) :
    (registries.clone source target).named? other =
      if other = target then (registries.named? source).or (registries.named? target) else registries.named? other := by
  unfold clone
  cases here : registries.owned.find? source with
  | none =>
    have missing : registries.named? source = none := by rw [named?,here,Option.bind_none]
    dsimp only
    split
    next same => rw [missing,Option.none_or,same]
    next => rfl
  | some cell =>
    have present : registries.cells[cell]? = some _ := List.getElem?_eq_getElem (closed source cell here)
    simp only [named?,SortedMap.find?_insert,here]
    split
    · simp only [Option.bind_some,present,Option.some_or]
    · rfl

theorem isClosed_clone (closed : registries.IsClosed) (source target : String) :
    (registries.clone source target).IsClosed := by
  unfold clone
  split
  · exact closed
  next cell here =>
    intro other elsewhere found
    rw [SortedMap.find?_insert] at found
    split at found
    · cases found
      exact closed source cell here
    · exact closed other elsewhere found

theorem named?_merge (closed : registries.IsClosed) (name source other : String) :
    (registries.merge name source).named? other =
      if other = name then (registries.named? name).map (·.merge ((registries.named? source).getD .empty))
      else registries.named? other := by
  have unchanged : (if other = name then (registries.named? name).map (·.merge .empty) else registries.named? other) =
      registries.named? other := by
    split
    next same => rw [same,Option.map_congr fun registry _ => registry.merge_empty,Option.map_id']
    next => rfl
  unfold merge
  split
  next missing => rw [missing,Option.getD_none,unchanged]
  next registry found =>
    rw [found,Option.getD_some]
    split
    next nothing =>
      have same : registry = .empty := SortedMap.ext (List.isEmpty_iff.mp nothing)
      rw [same,unchanged]
    next => exact named?_write closed name other _

theorem isClosed_merge (closed : registries.IsClosed) (name source : String) : (registries.merge name source).IsClosed := by
  unfold merge
  split
  · exact closed
  · split
    · exact closed
    · exact isClosed_write closed name _

inductive Step (A : Type) where
  | create (own : String)
  | clone (source own : String)
  | register (own method : String) (decoder : Decoder A)
  | merge (own source : String)

namespace Step

/-- The registry that a step makes or changes. -/
def own : Step A → String
  | create own => own
  | clone _ own => own
  | register own _ _ => own
  | merge own _ => own

def apply (registries : Registries A) : Step A → Registries A
  | create own => registries.create own
  | clone source own => registries.clone source own
  | register own method decoder => registries.register own method decoder
  | merge own source => registries.merge own source

/-- What a step leaves under its own name, from what it finds under the names that it mentions. -/
def result? (named? : String → Option (Registry A)) : Step A → Option (Registry A)
  | create _ => some .empty
  | clone source own => (named? source).or (named? own)
  | register own method decoder => (named? own).map (·.insert method decoder)
  | merge own source => (named? own).map (·.merge ((named? source).getD .empty))

/-- The decoders that a registry has been given, one after the other. A clone takes over what
its source has been given, and a merge adds it. -/
def given? (history? : String → Option (List (String × Decoder A))) : Step A → Option (List (String × Decoder A))
  | create _ => some []
  | clone source own => (history? source).or (history? own)
  | register own method decoder => (history? own).map (· ++ [(method,decoder)])
  | merge own source => (history? own).map (· ++ (history? source).getD [])

theorem named?_apply (closed : registries.IsClosed) (step : Step A) (name : String) :
    (step.apply registries).named? name =
      if name = step.own then step.result? registries.named? else registries.named? name := by
  cases step with
  | create own => exact named?_of_fresh closed .empty
  | clone source own => exact named?_clone closed source own name
  | register own method decoder => exact named?_write closed own name _
  | merge own source => exact named?_merge closed own source name

theorem isClosed_apply (closed : registries.IsClosed) (step : Step A) : (step.apply registries).IsClosed := by
  cases step with
  | create own => exact isClosed_of_fresh closed .empty own
  | clone source own => exact isClosed_clone closed source own
  | register own method decoder => exact isClosed_write closed own _
  | merge own source => exact isClosed_merge closed own source

end Step

def run (registries : Registries A) (steps : List (Step A)) : Registries A := steps.foldl Step.apply registries

def history? (steps : List (Step A)) : String → Option (List (String × Decoder A)) :=
  steps.foldl (fun history? step => Function.update history? step.own (step.given? history?)) fun _ => none

theorem Step.rel_result? {named? : String → Option (Registry A)}
    {history? : String → Option (List (String × Decoder A))}
    (follow : ∀ name, Option.Rel Registry.Follows (named? name) (history? name)) (step : Step A) :
    Option.Rel Registry.Follows (step.result? named?) (step.given? history?) := by
  cases step with
  | create own => exact .some Registry.follows_empty
  | clone source own =>
    have others := follow source
    change Option.Rel _ ((named? source).or (named? own)) ((history? source).or (history? own))
    generalize named? source = left,history? source = right at others
    cases others with
    | none => exact follow own
    | some follows => exact .some follows
  | register own method decoder =>
    have before := follow own
    change Option.Rel _ ((named? own).map _) ((history? own).map _)
    generalize named? own = left,history? own = right at before
    cases before with
    | none => exact .none
    | some follows => exact .some (follows.insert method decoder)
  | merge own source =>
    have others : ((named? source).getD .empty).Follows ((history? source).getD []) := by
      have others := follow source
      generalize named? source = left,history? source = right at others
      cases others with
      | none => exact Registry.follows_empty
      | some follows => exact follows
    have before := follow own
    change Option.Rel _ ((named? own).map _) ((history? own).map _)
    generalize named? own = left,history? own = right at before
    cases before with
    | none => exact .none
    | some follows => exact .some (follows.merge others)

theorem run_concat (registries : Registries A) (steps : List (Step A)) (step : Step A) :
    registries.run (steps ++ [step]) = step.apply (registries.run steps) := List.foldl_concat ..

theorem isClosed_run (steps : List (Step A)) : (empty.run steps : Registries A).IsClosed := by
  induction steps using List.reverseRecOn with
  | nil => exact fun _ _ => nofun
  | append_singleton steps step ih =>
    rw [run_concat]
    exact step.isClosed_apply ih

theorem run_follows_history (steps : List (Step A)) (name : String) :
    Option.Rel Registry.Follows ((empty.run steps).named? name) (history? steps name) := by
  induction steps using List.reverseRecOn generalizing name with
  | nil => exact .none
  | append_singleton steps step ih =>
    rw [run_concat,step.named?_apply (isClosed_run steps),history?,List.foldl_concat,Function.update_apply]
    split
    · exact step.rel_result? ih
    · exact ih name

theorem named?_of_others (steps : List (Step A)) {later : List (Step A)} {name : String}
    (others : ∀ step ∈ later, step.own ≠ name) :
    (empty.run (steps ++ later)).named? name = (empty.run steps).named? name := by
  induction later using List.reverseRecOn with
  | nil => rw [List.append_nil]
  | append_singleton later step ih =>
    have different := others step (by simp)
    rw [← List.append_assoc,run_concat,step.named?_apply (isClosed_run _),if_neg (Ne.symm different)]
    exact ih fun step member => others step (by simp [member])

end Registries

namespace ClientBuilder
variable {A : Type}

inductive Setting (A : Type) where
  | registry (added : Registry A)
  | observability (config : Observability)
  | metrics
  | serviceName (name : String)
  | sessionEndpoint (url : String)
  | authorization (value : String)

namespace Setting

def apply (builder : ClientBuilder A) : Setting A → ClientBuilder A
  | registry added => builder.withRegistry added
  | observability config => builder.withObservability config
  | metrics => builder.withMetrics
  | serviceName name => {builder with serviceName := some name}
  | sessionEndpoint url => {builder with sessionEndpoint := url}
  | authorization value => {builder with authorization := value}

def given : Setting A → List (String × Decoder A)
  | registry added => added.entries
  | _ => []

end Setting

def set (builder : ClientBuilder A) (settings : List (Setting A)) : ClientBuilder A := settings.foldl Setting.apply builder

theorem follows_set (transport : Transport) (settings : List (Setting A)) :
    Registry.Follows ((new transport).set settings).registry (settings.flatMap Setting.given) := by
  induction settings using List.reverseRecOn with
  | nil => exact Registry.follows_empty
  | append_singleton settings setting ih =>
    rw [set,List.foldl_concat,List.flatMap_append,List.flatMap_singleton]
    cases setting with
    | registry added => exact ih.merge (Registry.follows_entries added)
    | _ =>
      change Registry.Follows _ (_ ++ [])
      rw [List.append_nil]
      exact ih

theorem registry_build {builder : ClientBuilder A} {client : Client A} (built : builder.build = .ok client) :
    client.registry = builder.registry := by
  unfold build at built
  split at built
  · cases built
    rfl
  · contradiction

end ClientBuilder

def Event.given {A : Type} : Event A → List (String × Decoder A)
  | .operation _ => []
  | .enable registry => registry.entries

theorem Live.follows_run {A : Type} [Json.Writable A] {live : Live A} {history : List (String × Decoder A)}
    (follows : Registry.Follows live.client.registry history) (events : List (Event A)) :
    Registry.Follows (live.run events).client.registry (history ++ events.flatMap Event.given) := by
  induction events generalizing live history with
  | nil =>
    rw [List.flatMap_nil,List.append_nil]
    exact follows
  | cons event events ih =>
    rw [List.flatMap_cons,← List.append_assoc]
    refine ih ?_
    cases event with
    | operation operation =>
      rw [Event.given,List.append_nil]
      exact follows
    | enable added => exact follows.merge (Registry.follows_entries added)

/-- Registries that share what they hold, and those of builders and clients, hold what their
own histories say, and merging them is joining maps of which the second counts. -/
theorem registries_follow_histories {A : Type} [Json.Writable A] :
    (∀ (steps : List (Registries.Step A)) (name : String),
      Option.Rel Registry.Follows ((Registries.empty.run steps).named? name) (Registries.history? steps name)) ∧
    (∀ (steps later : List (Registries.Step A)) (name : String), (∀ step ∈ later, step.own ≠ name) →
      (Registries.empty.run (steps ++ later)).named? name = (Registries.empty.run steps).named? name) ∧
    (∀ (transport : Transport) (settings : List (ClientBuilder.Setting A)) (client : Client A),
      ((ClientBuilder.new transport).set settings).build = .ok client → ∀ (state : ClientState) (events : List (Event A)),
        Registry.Follows ((Live.mk client state).run events).client.registry
          (settings.flatMap (·.given) ++ events.flatMap (·.given))) ∧
    (∀ first second third : Registry A, (first.merge second).merge third = first.merge (second.merge third)) ∧
    (∀ registry : Registry A, registry.merge registry = registry ∧ registry.merge .empty = registry ∧
      SortedMap.empty.merge registry = registry) ∧
    ∀ first second : Registry A, (∀ method ∈ first.keys, method ∉ second.keys) →
      first.merge second = second.merge first := by
  refine ⟨Registries.run_follows_history,fun steps _ _ => Registries.named?_of_others steps,?_,
    SortedMap.merge_assoc,fun registry => ⟨registry.merge_self,registry.merge_empty,registry.empty_merge⟩,
    fun _ _ => SortedMap.merge_comm⟩
  intro transport settings client built state events
  refine Live.follows_run ?_ events
  rw [ClientBuilder.registry_build built]
  exact ClientBuilder.follows_set transport settings

theorem registries_follow_histories_shared :
    let first : Decoder Json.Value := fun _ => .ok .null
    let second : Decoder Json.Value := fun _ => .ok (.boolean true)
    let steps : List (Registries.Step Json.Value) :=
      [.create "a",.register "a" "m" first,.clone "a" "b",.register "a" "m" second,.create "c",.merge "c" "a"]
    let later : List (Registries.Step Json.Value) := [.merge "a" "b",.register "a" "n" first]
    let settings : List (ClientBuilder.Setting Json.Value) :=
      [.registry (SortedMap.empty.insert "m" first),.metrics,.registry (SortedMap.empty.insert "m" second)]
    (∃ clone, (Registries.empty.run (steps ++ later)).named? "b" = some clone ∧ clone.decoder? "m" = some first ∧
      clone.size = 1) ∧
    (∃ target, (Registries.empty.run (steps ++ later)).named? "c" = some target ∧ target.decoder? "m" = some second ∧
      target.decoder? "n" = none) ∧
    (∃ client, ((ClientBuilder.new (.scripted [])).set settings).build = .ok client ∧
      client.registry.decoder? "m" = some second) ∧
    ((SortedMap.empty.insert "m" first).merge (SortedMap.empty.insert "n" second) : Registry Json.Value) =
      (SortedMap.empty.insert "n" second).merge (SortedMap.empty.insert "m" first) := by
  intro first second steps later settings
  obtain ⟨follow,kept,clients,_,_,commute⟩ := @registries_follow_histories Json.Value _
  have clonedHistory : Registries.history? steps "b" = some [("m",first)] := rfl
  have mergedHistory : Registries.history? steps "c" = some [("m",first),("m",second)] := rfl
  have cloned := follow steps "b"
  have merged := follow steps "c"
  rw [clonedHistory,Outcome.rel_some_iff] at cloned
  rw [mergedHistory,Outcome.rel_some_iff] at merged
  rw [kept steps later "b" (by decide),kept steps later "c" (by decide)]
  obtain ⟨clone,known,source⟩ := cloned
  obtain ⟨target,other,both⟩ := merged
  refine ⟨⟨clone,known,source.found "m",source.size⟩,⟨target,other,both.found "m",both.found "n"⟩,⟨_,rfl,?_⟩,?_⟩
  · exact (clients (.scripted []) settings _ rfl .initial []).found "m"
  · exact commute _ _ (by decide)

end Jmap
