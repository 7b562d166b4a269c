import LlmGateway.Router.Poller
import LlmGateway.Router.Exact
import LlmGateway.Lib.Transition

namespace LlmGateway

/-- A strategy object with the state it owns. -/
inductive StrategyObject where
  | costOptimized (fallback : Counters)
  | latencyOptimized (fallback : Counters) (ewmas : String → Option ℚ)
  | roundRobin (counters : Counters)
  | weighted
  | priority

namespace StrategyObject

def kind : StrategyObject → StrategyKind
  | .costOptimized _ => .costOptimized
  | .latencyOptimized _ _ => .latencyOptimized
  | .roundRobin _ => .roundRobin
  | .weighted => .weighted
  | .priority => .priority

/-- The free `Build`: a new object with every call. -/
def build (name : String) : Except String StrategyObject :=
  match name with
  | "cost_optimized" => .ok (.costOptimized fun _ => 0)
  | "latency_optimized" => .ok (.latencyOptimized (fun _ => 0) fun _ => none)
  | "round_robin" => .ok (.roundRobin fun _ => 0)
  | "weighted" => .ok .weighted
  | "priority" => .ok .priority
  | _ => .error ("unknown routing strategy " ++ name.quote)

def select (o : StrategyObject) (draw : ℚ) (candidates : List Candidate) (req : ChatCompletionRequest)
    (group : String) : Except String Candidate × StrategyObject :=
  match o with
  | .costOptimized fallback =>
    let (res, counters) := selectCostOptimized fallback candidates req group
    (res, .costOptimized counters)
  | .latencyOptimized fallback ewmas =>
    let (res, counters) := selectLatencyOptimized ewmas fallback candidates group
    (res, .latencyOptimized counters ewmas)
  | .roundRobin counters =>
    let (res, counters) := selectRoundRobin counters candidates group
    (res, .roundRobin counters)
  | .weighted => (selectWeighted draw candidates, .weighted)
  | .priority => (selectPriority candidates, .priority)

/-- `Observe`, which the poller of the object calls. -/
def observe (o : StrategyObject) (alpha : ℚ) (provider : String) (seconds : ℚ) : Option StrategyObject :=
  match o with
  | .latencyOptimized fallback ewmas =>
    some (.latencyOptimized fallback (LlmGateway.observe alpha ewmas provider seconds))
  | _ => none

end StrategyObject

/-- The objects by address. -/
abbrev Heap := List StrategyObject

/-- `Builder`, with the objects that there are. -/
structure Builder where
  memo : StringMap Nat
  heap : Heap

namespace Builder

def new : Builder := ⟨∅, []⟩

def build (b : Builder) (name : String) : Except String (Nat × Builder) :=
  match b.memo.lookup name with
  | some s => .ok (s, b)
  | none =>
    match StrategyObject.build name with
    | .error e => .error e
    | .ok s => .ok (b.heap.length, ⟨b.memo.insert name b.heap.length, b.heap ++ [s]⟩)

end Builder

/-- `defaultRouter`, with the addresses of its strategies. -/
structure ObjectRouter where
  registry : Registry
  groups : StringMap ModelGroupConfig
  pricing : StringMap CandidatePricing
  defaultStrategy : Nat
  groupStrategies : StringMap Nat

/-- The loop of `NewRouter` over the model groups. -/
def buildObjectGroups (providers : StringMap ProviderConfig) :
    List (Sigma fun _ : String => ModelGroupConfig) → StringMap Nat → Builder → Except String (StringMap Nat × Builder)
  | [], built, b => .ok (built, b)
  | ⟨groupName, g⟩ :: rest, built, b =>
    match checkCandidates groupName providers 0 g.candidates with
    | .error e => .error e
    | .ok _ =>
      if g.strategy = "" then buildObjectGroups providers rest built b
      else match b.build g.strategy with
        | .error e => .error ("router: model_groups[" ++ groupName.quote ++ "]: " ++ e)
        | .ok (s, b) => buildObjectGroups providers rest (built.insert groupName s) b

/-- `NewRouter` with the `Build` of a `Builder`. -/
def newObjectRouter (registry : Registry) (cfg : RoutingConfig) (providers : StringMap ProviderConfig)
    (b : Builder) : Except String (ObjectRouter × Builder) :=
  match b.build cfg.defaultStrategy with
  | .error e => .error ("router: " ++ e)
  | .ok (defaultStrategy, b) =>
    match buildObjectGroups providers cfg.modelGroups.entries ∅ b with
    | .error e => .error e
    | .ok (groupStrategies, b) =>
      .ok (⟨registry, cfg.modelGroups, cfg.pricing, defaultStrategy, groupStrategies⟩, b)

namespace ObjectRouter

/-- The candidates depend on the tables alone. -/
def resolveCandidates (r : ObjectRouter) (modelName : String) : Except RouteError (String × List Candidate) :=
  Router.resolveCandidates ⟨r.registry, r.groups, r.pricing, .priority, ∅⟩ modelName

def strategyFor (r : ObjectRouter) (group : String) : Nat :=
  if group ≠ "" then (r.groupStrategies.lookup group).getD r.defaultStrategy else r.defaultStrategy

/-- `Route`. The addresses that a router keeps are those of objects. -/
def route (r : ObjectRouter) (heap : Heap) (hs : Breakers) (now : Int) (draw : ℚ)
    (req : Option ChatCompletionRequest) : Except RouteError (Provider × Decision) × Heap :=
  match req with
  | none => (.error .nilRequest, heap)
  | some req =>
    match r.resolveCandidates req.model with
    | .error e => (.error e, heap)
    | .ok (group, candidates) =>
      let candidates := filterHealthy hs now candidates
      if candidates.length = 0 then (.error .noHealthyProviders, heap)
      else
        let strategy := heap.getD (r.strategyFor group) .priority
        match strategy.select draw candidates req group with
        | (.error e, s) => (.error (.strategy strategy.kind.name e), heap.set (r.strategyFor group) s)
        | (.ok picked, s) =>
          (.ok (picked.provider, ⟨picked.provider.name, picked.model, strategy.kind.name, group⟩),
            heap.set (r.strategyFor group) s)

end ObjectRouter

/-- The object holds its part of the state. -/
def StrategyObject.Agrees (o : StrategyObject) (st : StrategyState) : Prop :=
  match o with
  | .costOptimized fallback => st.costFallback = fallback
  | .latencyOptimized fallback ewmas => st.latencyFallback = fallback ∧ st.ewmas = ewmas
  | .roundRobin counters => st.roundRobin = counters
  | .weighted | .priority => True

section Select

variable {o other : StrategyObject} {st : StrategyState}

/-- An object picks as its kind does, and changes its own part of the state alone. -/
theorem StrategyObject.Agrees.select (agrees : o.Agrees st) (draw : ℚ) (candidates : List Candidate)
    (req : ChatCompletionRequest) (group : String) :
    (o.kind.select st draw candidates req group).1 = (o.select draw candidates req group).1 ∧
      (o.select draw candidates req group).2.kind = o.kind ∧
      (o.select draw candidates req group).2.Agrees (o.kind.select st draw candidates req group).2 ∧
      ∀ other : StrategyObject, other.kind ≠ o.kind → other.Agrees st →
        other.Agrees (o.kind.select st draw candidates req group).2 := by
  cases o with
  | costOptimized fallback =>
    cases agrees
    refine ⟨rfl, rfl, rfl, fun other apart held => ?_⟩
    cases other <;> first | exact absurd rfl apart | exact held
  | latencyOptimized fallback ewmas =>
    obtain ⟨rfl, rfl⟩ := agrees
    refine ⟨rfl, rfl, ⟨rfl, rfl⟩, fun other apart held => ?_⟩
    cases other <;> first | exact absurd rfl apart | exact held
  | roundRobin counters =>
    cases agrees
    refine ⟨rfl, rfl, rfl, fun other apart held => ?_⟩
    cases other <;> first | exact absurd rfl apart | exact held
  | weighted => exact ⟨rfl, rfl, trivial, fun _ _ held => held⟩
  | priority => exact ⟨rfl, rfl, trivial, fun _ _ held => held⟩

theorem StrategyObject.build_cases (name : String) :
    (∃ e, StrategyObject.build name = .error e ∧ StrategyKind.build name = .error e) ∨
      ∃ o, StrategyObject.build name = .ok o ∧ StrategyKind.build name = .ok o.kind ∧ o.Agrees .fresh := by
  unfold StrategyObject.build
  split
  · exact Or.inr ⟨_, rfl, rfl, rfl⟩
  · exact Or.inr ⟨_, rfl, rfl, rfl, rfl⟩
  · exact Or.inr ⟨_, rfl, rfl, rfl⟩
  · exact Or.inr ⟨_, rfl, rfl, trivial⟩
  · exact Or.inr ⟨_, rfl, rfl, trivial⟩
  · refine Or.inl ⟨_, rfl, ?_⟩
    unfold StrategyKind.build
    split <;> first | contradiction | rfl

end Select

theorem StrategyKind.build_name (kind : StrategyKind) : StrategyKind.build kind.name = .ok kind := by
  cases kind <;> rfl

theorem StrategyKind.name_injective : Function.Injective StrategyKind.name := by
  intro kind kind' same
  have built := kind.build_name
  rw [same, kind'.build_name] at built
  exact (Except.ok.inj built).symm

/-- No two objects are of one kind. -/
def Distinct (heap : Heap) : Prop :=
  ∀ (i j : Nat) (o o' : StrategyObject), heap[i]? = some o → heap[j]? = some o' → o.kind = o'.kind → i = j

theorem Distinct.nodup {heap : Heap} (distinct : Distinct heap) : (heap.map StrategyObject.kind).Nodup := by
  refine List.nodup_iff_getElem?_ne_getElem?.mpr fun i j before inside same => ?_
  rw [List.length_map] at inside
  rw [List.getElem?_map, List.getElem?_map, List.getElem?_eq_getElem inside,
    List.getElem?_eq_getElem (before.trans inside)] at same
  exact before.ne (distinct i j _ _ (List.getElem?_eq_getElem _) (List.getElem?_eq_getElem _) (Option.some.inj same))

/-- The table names the objects, all of them, and they are new. -/
structure Builder.Sound (b : Builder) : Prop where
  named : ∀ name i, b.memo.lookup name = some i → ∃ o, b.heap[i]? = some o ∧ o.kind.name = name
  listed : ∀ i o, b.heap[i]? = some o → b.memo.lookup o.kind.name = some i
  fresh : ∀ o ∈ b.heap, o.Agrees .fresh

namespace Builder

variable {b : Builder}

theorem sound_new : Builder.new.Sound := ⟨nofun, nofun, nofun⟩

theorem Sound.distinct (sound : b.Sound) : Distinct b.heap := by
  intro i j o o' at_ at_' same
  have listed := sound.listed i o at_
  rw [same, sound.listed j o' at_'] at listed
  exact (Option.some.inj listed).symm

/-- `Build` fails as the kinds do, or returns an object of the kind, which is the only
one it may have made. -/
theorem Sound.build (sound : b.Sound) (name : String) :
    (∃ e, b.build name = .error e ∧ StrategyKind.build name = .error e) ∨
      ∃ i b' o, b.build name = .ok (i, b') ∧ StrategyKind.build name = .ok o.kind ∧ b'.Sound ∧
        b.heap <+: b'.heap ∧ b'.heap[i]? = some o ∧ ∀ made ∈ b'.heap, made ∈ b.heap ∨ made = o := by
  unfold Builder.build
  cases known : b.memo.lookup name with
  | some i =>
    obtain ⟨o, at_, rfl⟩ := sound.named name i known
    exact Or.inr ⟨i, b, o, rfl, StrategyKind.build_name o.kind, sound, List.prefix_rfl, at_, fun _ made => Or.inl made⟩
  | none =>
    rcases StrategyObject.build_cases name with ⟨e, failed, failed'⟩ | ⟨o, made, kind, new⟩
    · exact Or.inl ⟨e, by rw [failed], failed'⟩
    · have text := StrategyKind.name_of_build kind
      refine Or.inr ⟨b.heap.length, _, o, by rw [made], kind, ?_, List.prefix_append _ _,
        List.getElem?_concat_length, fun other member => ?_⟩
      · refine ⟨fun other i found => ?_, fun i other at_ => ?_, fun other member => ?_⟩
        · by_cases same : other = name
          · subst same
            rw [AList.lookup_insert] at found
            cases found
            exact ⟨o, List.getElem?_concat_length, text⟩
          · rw [AList.lookup_insert_ne same] at found
            obtain ⟨old, at_, oldName⟩ := sound.named other i found
            refine ⟨old, ?_, oldName⟩
            rw [List.getElem?_append_left (List.getElem?_eq_some_iff.mp at_).1]
            exact at_
        · rcases Nat.lt_or_ge i b.heap.length with old | beyond
          · rw [List.getElem?_append_left old] at at_
            have listed := sound.listed i other at_
            have apart : other.kind.name ≠ name := by
              rintro rfl
              cases known.symm.trans listed
            rwa [AList.lookup_insert_ne apart]
          · have inside := (List.getElem?_eq_some_iff.mp at_).1
            rw [List.length_append, List.length_singleton] at inside
            obtain rfl : i = b.heap.length := by omega
            rw [List.getElem?_concat_length] at at_
            cases at_
            rw [text, AList.lookup_insert]
        · rcases List.mem_append.mp member with old | last
          · exact sound.fresh other old
          · cases List.mem_singleton.mp last
            exact new
      · rcases List.mem_append.mp member with old | last
        · exact Or.inl old
        · exact Or.inr (List.mem_singleton.mp last)

end Builder

/-- The addresses lead to objects of the kinds in the other table. -/
def Points (heap : Heap) (addresses : StringMap Nat) (kinds : StringMap StrategyKind) : Prop :=
  ∀ name, (addresses.lookup name = none ∧ kinds.lookup name = none) ∨
    ∃ i o, addresses.lookup name = some i ∧ heap[i]? = some o ∧ kinds.lookup name = some o.kind

theorem getElem?_of_grown {heap heap' : Heap} (before : heap <+: heap') {i : Nat} {o : StrategyObject}
    (at_ : heap[i]? = some o) : heap'[i]? = some o := by
  obtain ⟨rest, rfl⟩ := before
  rw [List.getElem?_append_left (List.getElem?_eq_some_iff.mp at_).1]
  exact at_

theorem Points.mono {heap heap' : Heap} {addresses : StringMap Nat} {kinds : StringMap StrategyKind}
    (points : Points heap addresses kinds) (before : heap <+: heap') : Points heap' addresses kinds := by
  intro name
  rcases points name with unset | ⟨i, o, address, at_, kind⟩
  · exact Or.inl unset
  · exact Or.inr ⟨i, o, address, getElem?_of_grown before at_, kind⟩

theorem Points.insert {heap : Heap} {addresses : StringMap Nat} {kinds : StringMap StrategyKind}
    (points : Points heap addresses kinds) {i : Nat} {o : StrategyObject} (at_ : heap[i]? = some o) (name : String) :
    Points heap (addresses.insert name i) (kinds.insert name o.kind) := by
  intro other
  by_cases same : other = name
  · subst same
    exact Or.inr ⟨i, o, AList.lookup_insert _, at_, AList.lookup_insert _⟩
  · rw [AList.lookup_insert_ne same, AList.lookup_insert_ne same]
    exact points other

/-- The loop over the groups fails as that over the kinds does, or points each group to
an object of its strategy; every object is one that was there or that a group needs, and
what a group needs is there. -/
theorem buildObjectGroups_cases (providers : StringMap ProviderConfig)
    (entries : List (Sigma fun _ : String => ModelGroupConfig)) {addresses : StringMap Nat}
    {kinds : StringMap StrategyKind} {b : Builder} (sound : b.Sound) (points : Points b.heap addresses kinds) :
    (∃ e, buildObjectGroups providers entries addresses b = .error e ∧ buildGroups providers entries kinds = .error e) ∨
      ∃ addresses' kinds' b', buildObjectGroups providers entries addresses b = .ok (addresses', b') ∧
        buildGroups providers entries kinds = .ok kinds' ∧ b'.Sound ∧ b.heap <+: b'.heap ∧
        Points b'.heap addresses' kinds' ∧
        (∀ o ∈ b'.heap, o ∈ b.heap ∨ ∃ e ∈ entries, e.2.strategy = o.kind.name) ∧
        ∀ e ∈ entries, e.2.strategy ≠ "" → ∃ o ∈ b'.heap, o.kind.name = e.2.strategy := by
  induction entries generalizing addresses kinds b with
  | nil => exact Or.inr ⟨addresses, kinds, b, rfl, rfl, sound, List.prefix_rfl, points,
      fun _ made => Or.inl made, List.forall_mem_nil _⟩
  | cons entry entries ih =>
    obtain ⟨groupName, g⟩ := entry
    simp only [buildObjectGroups, buildGroups]
    cases checkCandidates groupName providers 0 g.candidates with
    | error e => exact Or.inl ⟨e, rfl, rfl⟩
    | ok =>
      by_cases unset : g.strategy = ""
      · simp only [if_pos unset]
        rcases ih sound points with failed | ⟨addresses', kinds', b', out, out', kept, grown, points', made, needed⟩
        · exact Or.inl failed
        · refine Or.inr ⟨addresses', kinds', b', out, out', kept, grown, points', fun o member => ?_, ?_⟩
          · rcases made o member with old | ⟨e, inside, same⟩
            · exact Or.inl old
            · exact Or.inr ⟨e, List.mem_cons_of_mem _ inside, same⟩
          · exact List.forall_mem_cons.mpr ⟨fun filled => absurd unset filled, needed⟩
      · simp only [if_neg unset]
        rcases sound.build g.strategy with ⟨e, failed, failed'⟩ | ⟨i, b₁, o, built, kind, sound₁, grown₁, at_, made₁⟩
        · exact Or.inl ⟨_, by rw [failed], by rw [failed']⟩
        · rw [built, kind]
          rcases ih sound₁ ((points.mono grown₁).insert at_ groupName) with
            failed | ⟨addresses', kinds', b', out, out', kept, grown, points', made, needed⟩
          · exact Or.inl failed
          · have text := StrategyKind.name_of_build kind
            have there := List.mem_of_getElem? (getElem?_of_grown grown at_)
            refine Or.inr ⟨addresses', kinds', b', out, out', kept, grown₁.trans grown, points', fun o' member => ?_,
              List.forall_mem_cons.mpr ⟨fun _ => ⟨o, there, text⟩, needed⟩⟩
            rcases made o' member with old | ⟨e, inside, same⟩
            · rcases made₁ o' old with older | rfl
              · exact Or.inl older
              · exact Or.inr ⟨_, List.mem_cons_self, text.symm⟩
            · exact Or.inr ⟨e, List.mem_cons_of_mem _ inside, same⟩

/-- The router keeps addresses of objects of the other's kinds. -/
structure ObjectRouter.Represents (r : ObjectRouter) (heap : Heap) (shared : Router) : Prop where
  registry : r.registry = shared.registry
  groups : r.groups = shared.groups
  pricing : r.pricing = shared.pricing
  strategy : ∀ group, ∃ o, heap[r.strategyFor group]? = some o ∧ o.kind = shared.strategyFor group

/-- `NewRouter` fails as over the kinds, or points to one object for each strategy that
is in use. -/
theorem newObjectRouter_cases (registry : Registry) (cfg : RoutingConfig) (providers : StringMap ProviderConfig) :
    (∃ e, newObjectRouter registry cfg providers .new = .error e ∧ newRouter registry cfg providers = .error e) ∨
      ∃ r b shared, newObjectRouter registry cfg providers .new = .ok (r, b) ∧
        newRouter registry cfg providers = .ok shared ∧ b.Sound ∧ r.Represents b.heap shared ∧
        ∀ kind, kind ∈ b.heap.map StrategyObject.kind ↔
          cfg.defaultStrategy = kind.name ∨ ∃ e ∈ cfg.modelGroups.entries, e.2.strategy = kind.name := by
  rw [newObjectRouter, newRouter]
  rcases Builder.sound_new.build cfg.defaultStrategy with
    ⟨e, failed, failed'⟩ | ⟨i, b, o, built, kind, sound, _, at_, made⟩
  · exact Or.inl ⟨_, by rw [failed], by rw [failed']⟩
  · simp only [built, kind]
    have empty : Points b.heap ∅ ∅ := fun _ => Or.inl ⟨rfl, rfl⟩
    rcases buildObjectGroups_cases providers cfg.modelGroups.entries sound empty with
      ⟨e, failed, failed'⟩ | ⟨addresses, kinds, b', out, out', sound', grown, points, made', needed⟩
    · exact Or.inl ⟨_, by rw [failed], by rw [failed']⟩
    · simp only [out, out']
      refine Or.inr ⟨_, b', _, rfl, rfl, sound', ⟨rfl, rfl, rfl, fun group => ?_⟩, fun kind' => ⟨?_, ?_⟩⟩
      · have default := getElem?_of_grown grown at_
        simp only [ObjectRouter.strategyFor, Router.strategyFor]
        split
        · rcases points group with ⟨unset, unset'⟩ | ⟨j, o', address, there, kind'⟩
          · rw [unset, unset']
            exact ⟨o, default, rfl⟩
          · rw [address, kind']
            exact ⟨o', there, rfl⟩
        · exact ⟨o, default, rfl⟩
      · intro member
        obtain ⟨o', inside, rfl⟩ := List.mem_map.mp member
        rcases made' o' inside with old | used
        · rcases made o' old with older | rfl
          · cases older
          · exact Or.inl (StrategyKind.name_of_build kind).symm
        · exact Or.inr used
      · rintro (default | ⟨e, inside, same⟩)
        · rw [default, StrategyKind.build_name] at kind
          cases kind
          exact List.mem_map_of_mem (List.mem_of_getElem? (getElem?_of_grown grown at_))
        · have filled : e.2.strategy ≠ "" := by
            rw [same]
            cases kind' <;> decide
          obtain ⟨o', there, text⟩ := needed e inside filled
          exact List.mem_map.mpr ⟨o', there, StrategyKind.name_injective (text.trans same)⟩

/-- What happens to a router: a request is routed, or the poller of an object hands it
an average. -/
inductive RoutingEvent where
  | route (hs : Breakers) (now : Int) (draw : ℚ) (req : Option ChatCompletionRequest)
  | observe (address : Nat) (provider : String) (seconds : ℚ)

/-- The answers so far and the state. -/
structure RoutingRun (σ : Type) where
  state : σ
  answers : List (Except RouteError (Provider × Decision))

def ObjectRouter.step (r : ObjectRouter) (alpha : ℚ) (s : RoutingRun Heap) : RoutingEvent → Option (RoutingRun Heap)
  | .route hs now draw req =>
    let (answer, heap) := r.route s.state hs now draw req
    some ⟨heap, s.answers ++ [answer]⟩
  | .observe address provider seconds =>
    (s.state[address]?.bind fun o => o.observe alpha provider seconds).map fun o =>
      ⟨s.state.set address o, s.answers⟩

/-- The same with one state for all strategies. -/
def Router.step (r : Router) (alpha : ℚ) (s : RoutingRun StrategyState) :
    RoutingEvent → Option (RoutingRun StrategyState)
  | .route hs now draw req =>
    let (answer, st) := r.route hs now s.state draw req
    some ⟨st, s.answers ++ [answer]⟩
  | .observe _ provider seconds =>
    some ⟨{ s.state with ewmas := observe alpha s.state.ewmas provider seconds }, s.answers⟩

/-- The objects hold the state between them. -/
structure Shares (heap : Heap) (st : StrategyState) : Prop where
  distinct : Distinct heap
  agrees : ∀ (i : Nat) (o : StrategyObject), heap[i]? = some o → o.Agrees st

/-- An object that has moved on along with the state. -/
theorem Shares.set {heap : Heap} {st st' : StrategyState} (shares : Shares heap st) {i : Nat} {o o' : StrategyObject}
    (at_ : heap[i]? = some o) (kind : o'.kind = o.kind) (agrees : o'.Agrees st')
    (others : ∀ other : StrategyObject, other.kind ≠ o.kind → other.Agrees st → other.Agrees st') :
    Shares (heap.set i o') st' := by
  have moves : Transition.Moves heap (heap.set i o') i o' := Transition.moves_set at_
  have kinds (j : Nat) (x : StrategyObject) (there : (heap.set i o')[j]? = some x) :
      ∃ old, heap[j]? = some old ∧ x.kind = old.kind := by
    by_cases same : j = i
    · subst same
      cases moves.here.symm.trans there
      exact ⟨o, at_, kind⟩
    · exact ⟨x, moves.others j same ▸ there, rfl⟩
  constructor
  · intro j k x y there there' same
    obtain ⟨old, oldAt, oldKind⟩ := kinds j x there
    obtain ⟨old', oldAt', oldKind'⟩ := kinds k y there'
    exact shares.distinct j k old old' oldAt oldAt' (oldKind.symm.trans (same.trans oldKind'))
  · refine moves.all agrees fun k y apart at_' => ?_
    refine others y (fun same => apart ?_) (shares.agrees k y at_')
    exact shares.distinct k i y o at_' at_ same

section Simulation

variable {r : ObjectRouter} {shared : Router} {heap : Heap} {st : StrategyState}

theorem ObjectRouter.Represents.resolveCandidates (represents : r.Represents heap shared) (name : String) :
    r.resolveCandidates name = shared.resolveCandidates name := by
  rw [ObjectRouter.resolveCandidates, represents.registry, represents.groups, represents.pricing]
  rfl

/-- The addresses still lead to objects of the same kinds. -/
theorem ObjectRouter.Represents.set (represents : r.Represents heap shared) {i : Nat} {o o' : StrategyObject}
    (at_ : heap[i]? = some o) (kind : o'.kind = o.kind) : r.Represents (heap.set i o') shared := by
  refine ⟨represents.registry, represents.groups, represents.pricing, fun group => ?_⟩
  have moves : Transition.Moves heap (heap.set i o') i o' := Transition.moves_set at_
  obtain ⟨x, there, same⟩ := represents.strategy group
  by_cases here : r.strategyFor group = i
  · rw [here] at there ⊢
    cases at_.symm.trans there
    exact ⟨o', moves.here, kind.trans same⟩
  · exact ⟨x, (moves.others _ here).trans there, same⟩

/-- The objects and the state answer alike, and stay together. -/
theorem Shares.route (shares : Shares heap st) (represents : r.Represents heap shared) (hs : Breakers) (now : Int)
    (draw : ℚ) (req : Option ChatCompletionRequest) :
    (r.route heap hs now draw req).1 = (shared.route hs now st draw req).1 ∧
      Shares (r.route heap hs now draw req).2 (shared.route hs now st draw req).2 ∧
      r.Represents (r.route heap hs now draw req).2 shared := by
  cases req with
  | none => exact ⟨rfl, shares, represents⟩
  | some req =>
    simp only [ObjectRouter.route, Router.route, represents.resolveCandidates]
    cases shared.resolveCandidates req.model with
    | error e => exact ⟨rfl, shares, represents⟩
    | ok found =>
      obtain ⟨group, candidates⟩ := found
      dsimp only
      by_cases empty : (filterHealthy hs now candidates).length = 0
      · simp only [if_pos empty]
        exact ⟨trivial, shares, represents⟩
      · simp only [if_neg empty]
        obtain ⟨o, at_, kind⟩ := represents.strategy group
        have here : heap.getD (r.strategyFor group) .priority = o := by
          rw [List.getD_eq_getElem?_getD, at_, Option.getD_some]
        obtain ⟨same, kept, agrees, others⟩ :=
          (shares.agrees _ o at_).select draw (filterHealthy hs now candidates) req group
        have shares' := shares.set at_ kept agrees others
        have represents' := represents.set at_ kept
        rw [here, ← kind]
        generalize o.select draw (filterHealthy hs now candidates) req group = picked at same shares' represents' ⊢
        generalize o.kind.select st draw (filterHealthy hs now candidates) req group = picked' at same shares' ⊢
        obtain ⟨res, o'⟩ := picked
        obtain ⟨res', st'⟩ := picked'
        cases same
        cases res with
        | error e => exact ⟨rfl, shares', represents'⟩
        | ok c => exact ⟨rfl, shares', represents'⟩

/-- An average that a poller hands to its object is one for the state: there is one
object that takes it. -/
theorem Shares.observe (shares : Shares heap st) (represents : r.Represents heap shared) {i : Nat}
    {o o' : StrategyObject} (at_ : heap[i]? = some o) {alpha : ℚ} {provider : String} {seconds : ℚ}
    (observed : o.observe alpha provider seconds = some o') :
    Shares (heap.set i o') { st with ewmas := LlmGateway.observe alpha st.ewmas provider seconds } ∧
      r.Represents (heap.set i o') shared := by
  cases o with
  | latencyOptimized fallback ewmas =>
    obtain ⟨rfl, rfl⟩ := shares.agrees i _ at_
    cases observed
    refine ⟨shares.set at_ rfl ⟨rfl, rfl⟩ fun other apart held => ?_, represents.set at_ rfl⟩
    cases other <;> first | exact absurd rfl apart | exact held
  | costOptimized fallback => cases observed
  | roundRobin counters => cases observed
  | weighted => cases observed
  | priority => cases observed

/-- A state of the objects and one of the shared state that go together. -/
structure Together (r : ObjectRouter) (shared : Router) (s : RoutingRun Heap) (t : RoutingRun StrategyState) :
    Prop where
  shares : Shares s.state t.state
  represents : r.Represents s.state shared
  answers : s.answers = t.answers

theorem Together.step {alpha : ℚ} {s s' : RoutingRun Heap} {t : RoutingRun StrategyState} {e : RoutingEvent}
    (together : Together r shared s t) (taken : r.step alpha s e = some s') :
    ∃ t', shared.step alpha t e = some t' ∧ Together r shared s' t' := by
  cases e with
  | route hs now draw req =>
    obtain rfl : (⟨(r.route s.state hs now draw req).2, s.answers ++ [(r.route s.state hs now draw req).1]⟩ :
      RoutingRun Heap) = s' := Option.some.inj taken
    obtain ⟨same, shares, represents⟩ := together.shares.route together.represents hs now draw req
    refine ⟨⟨(shared.route hs now t.state draw req).2, t.answers ++ [(shared.route hs now t.state draw req).1]⟩, rfl,
      shares, represents, ?_⟩
    rw [together.answers, same]
  | observe address provider seconds =>
    obtain ⟨o', observed, rfl⟩ := Option.map_eq_some_iff.mp taken
    obtain ⟨o, at_, took⟩ := Option.bind_eq_some_iff.mp observed
    obtain ⟨shares, represents⟩ := together.shares.observe together.represents at_ took
    exact ⟨_, rfl, shares, represents, together.answers⟩

end Simulation

/-- The router over the objects of a `Builder` answers every run of requests and samples
as the one with a single state for each strategy. -/
theorem objects_share_state (registry : Registry) (cfg : RoutingConfig) (providers : StringMap ProviderConfig)
    {r : ObjectRouter} {b : Builder} (built : newObjectRouter registry cfg providers .new = .ok (r, b)) (alpha : ℚ) :
    ∃ shared, newRouter registry cfg providers = .ok shared ∧
      ∀ events s, Transition.run (r.step alpha) ⟨b.heap, []⟩ events = some s →
        ∃ t, Transition.run (shared.step alpha) ⟨.fresh, []⟩ events = some t ∧ t.answers = s.answers := by
  rcases newObjectRouter_cases registry cfg providers with
    ⟨_, failed, _⟩ | ⟨r', b', shared, out, accepted, sound, represents, _⟩
  · cases failed.symm.trans built
  · cases out.symm.trans built
    refine ⟨shared, accepted, fun events s taken => ?_⟩
    have start : Together r shared ⟨b.heap, []⟩ ⟨.fresh, []⟩ :=
      ⟨⟨sound.distinct, fun i o at_ => sound.fresh o (List.mem_of_getElem? at_)⟩, represents, rfl⟩
    obtain ⟨t, taken', together⟩ := Transition.run_simulates (fun _ _ _ _ held step => held.step step) start taken
    exact ⟨t, taken', together.answers.symm⟩

theorem objects_share_state_solo :
    ∃ r b shared, newObjectRouter (Registry.empty.register soloProvider ["gpt-4o"]) (soloRouting "fast") soloProviders
        .new = .ok (r, b) ∧
      newRouter (Registry.empty.register soloProvider ["gpt-4o"]) (soloRouting "fast") soloProviders = .ok shared ∧
        ∀ events s, Transition.run (r.step (1 / 12)) ⟨b.heap, []⟩ events = some s →
          ∃ t, Transition.run (shared.step (1 / 12)) ⟨.fresh, []⟩ events = some t ∧ t.answers = s.answers := by
  have built : newObjectRouter (Registry.empty.register soloProvider ["gpt-4o"]) (soloRouting "fast") soloProviders
      .new = .ok (_, _) := rfl
  obtain ⟨shared, accepted, runs⟩ := objects_share_state _ _ _ built (1 / 12)
  exact ⟨_, _, shared, built, accepted, runs⟩

/-- There is one object for each strategy that is in use and no other, so at most one
poller; and two requests share an object iff their strategies have one name. -/
theorem one_object_per_strategy (registry : Registry) (cfg : RoutingConfig) (providers : StringMap ProviderConfig)
    {r : ObjectRouter} {b : Builder} (built : newObjectRouter registry cfg providers .new = .ok (r, b)) :
    (b.heap.map StrategyObject.kind).Nodup ∧
    (∀ kind, kind ∈ b.heap.map StrategyObject.kind ↔
      cfg.defaultStrategy = kind.name ∨ ∃ e ∈ cfg.modelGroups.entries, e.2.strategy = kind.name) ∧
    ∀ name name', r.strategyFor (if name ∈ cfg.modelGroups then name else "") =
        r.strategyFor (if name' ∈ cfg.modelGroups then name' else "") ↔
      strategyName cfg name = strategyName cfg name' := by
  rcases newObjectRouter_cases registry cfg providers with
    ⟨_, failed, _⟩ | ⟨r', b', shared, out, accepted, sound, represents, used⟩
  · cases failed.symm.trans built
  · cases out.symm.trans built
    have holds := Router.holds_of_newRouter accepted
    refine ⟨sound.distinct.nodup, used, fun name name' => ?_⟩
    obtain ⟨o, at_, kind⟩ := represents.strategy (if name ∈ cfg.modelGroups then name else "")
    obtain ⟨o', at_', kind'⟩ := represents.strategy (if name' ∈ cfg.modelGroups then name' else "")
    rw [← strategyFor_name holds name, ← strategyFor_name holds name', ← kind, ← kind']
    constructor
    · intro same
      rw [same, at_'] at at_
      cases at_
      rfl
    · intro same
      exact sound.distinct _ _ o o' at_ at_' (StrategyKind.name_injective same)

/-- The group has a strategy of its own. -/
theorem one_object_per_strategy_solo :
    ∃ r b, newObjectRouter (Registry.empty.register soloProvider ["gpt-4o"]) (soloRouting "fast") soloProviders
        .new = .ok (r, b) ∧
      (b.heap.map StrategyObject.kind).Nodup ∧ r.strategyFor "fast" ≠ r.strategyFor "" := by
  have built : newObjectRouter (Registry.empty.register soloProvider ["gpt-4o"]) (soloRouting "fast") soloProviders
      .new = .ok (_, _) := rfl
  obtain ⟨once, _, shared⟩ := one_object_per_strategy _ _ _ built
  refine ⟨_, _, built, once, fun same => ?_⟩
  exact absurd ((shared "fast" "gpt-4o").mp same) (by decide)

end LlmGateway
