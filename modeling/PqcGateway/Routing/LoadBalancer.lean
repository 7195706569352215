import PqcGateway.Machinery.Runs
import PqcGateway.Routing.Router
import Mathlib.Data.List.Nodup
import Mathlib.Data.Nat.ModEq

/-!
# Routing/LoadBalancer — one counter, taken round the upstreams of every route

`LoadBalancer` counts the requests of all routes together, and each request takes its route's
upstream at the count, modulo how many there are.  A route sees only the counts of its own requests,
so what its requests are given depends on the requests that fall between them.

* `eachOnce_iff` — consecutive requests of a route share its upstreams out evenly exactly where no
  two of them are a multiple of its upstreams apart.
* `alternating_routes` — two routes that alternate, each with two upstreams, use one of them.
-/

namespace PqcGateway

/-! ## The balancer -/

/-- Round-robin load balancer for routes with multiple upstreams.  The counter is an `AtomicUsize`,
which wraps. -/
structure LoadBalancer where
  counter : ℕ
deriving DecidableEq, Repr

namespace LoadBalancer

def new : LoadBalancer := ⟨0⟩

/-- `&upstreams[i]`. -/
def index (upstreams : List String) (i : ℕ) : Checked String :=
  match upstreams[i]? with
  | some upstream => pure upstream
  | none => Checked.panicWith ("index out of bounds: the len is " ++ toString upstreams.length ++
      " but the index is " ++ toString i)

/-- Pick the next upstream from the list using round-robin. -/
def nextUpstream (upstreams : List String) (lb : LoadBalancer) :
    Checked (LoadBalancer × String) :=
  if upstreams.length ≤ 1 then do
    let upstream ← index upstreams 0
    pure (lb, upstream)
  else do
    let upstream ← index upstreams (lb.counter % upstreams.length)
    pure (⟨(lb.counter + 1) % 2 ^ 64⟩, upstream)

end LoadBalancer

/-- **The load balancer**, one request at a time, whichever route it is on. -/
def balancerMachine : Machine LoadBalancer Route String where
  step lb route := lb.nextUpstream route.upstreams

/-- A request that was given an upstream: its route, the upstream, and its place among all
requests. -/
structure Pick where
  route : Route
  upstream : String
  place : ℕ
deriving DecidableEq, Repr

/-- The picks made for one route. -/
def picksOf (route : Route) (requests : List Route) (upstreams : List String) : List Pick :=
  (((requests.zip upstreams).zipIdx).map fun e => ⟨e.1.1, e.1.2, e.2⟩).filter fun pick =>
    pick.route = route

/-! ## Choosing each element once

Nothing here is about requests: places are numbers, and what is chosen is the element at the place,
modulo the length of the list. -/

section

variable {α β : Type} {xs : List α} {l : List β} {place : β → ℕ} {pick : β → α}

/-- What stands at different places of a list without repetitions is different. -/
theorem pick_eq_iff (hxs : xs.Nodup)
    (hpick : ∀ b ∈ l, xs[place b % xs.length]? = some (pick b)) {a b : β} (ha : a ∈ l)
    (hb : b ∈ l) : pick a = pick b ↔ place a ≡ place b [MOD xs.length] := by
  have ha' := hpick a ha
  constructor
  · intro heq
    have hlt := (List.getElem?_eq_some_iff.mp ha').1
    exact (List.getElem?_inj hlt hxs).mp (ha'.trans (heq ▸ (hpick b hb).symm))
  · intro hmod
    rw [hmod] at ha'
    exact Option.some.inj (ha'.symm.trans (hpick b hb))

/-- **As many picks as there are elements choose each of them once** exactly if no two picks are at
the same place, modulo how many there are. -/
theorem count_pick_eq_one_iff [DecidableEq α] (hxs : xs.Nodup)
    (hpick : ∀ b ∈ l, xs[place b % xs.length]? = some (pick b)) (hlen : l.length = xs.length) :
    (∀ x ∈ xs, (l.map pick).count x = 1) ↔
      l.Pairwise fun a b => ¬ place a ≡ place b [MOD xs.length] := by
  have hmem : ∀ x ∈ l.map pick, x ∈ xs := by
    intro x hx
    obtain ⟨b, hb, rfl⟩ := List.mem_map.mp hx
    exact List.mem_of_getElem? (hpick b hb)
  have hnodup : (l.map pick).Nodup ↔ l.Pairwise fun a b => ¬ place a ≡ place b [MOD xs.length] := by
    rw [List.Nodup, List.pairwise_map]
    exact List.Pairwise.iff_of_mem fun ha hb => not_congr (pick_eq_iff hxs hpick ha hb)
  rw [← hnodup]
  constructor
  · intro hcount
    exact List.nodup_iff_count_le_one.mpr fun x => by
      by_cases hx : x ∈ l.map pick
      · exact (hcount x (hmem x hx)).le
      · rw [List.count_eq_zero_of_not_mem hx]
        exact Nat.zero_le 1
  · intro hpicks x hx
    have hperm : (l.map pick).Perm xs :=
      (List.subperm_of_subset hpicks hmem).perm_of_length_le (by rw [List.length_map, hlen])
    rw [hperm.count_eq]
    exact List.count_eq_one_of_mem hxs hx

end

/-! ## What a request is given -/

section

variable {lb lb' : LoadBalancer} {route : Route} {upstream : String}

theorem index_eq_ok {upstreams : List String} {i : ℕ} :
    LoadBalancer.index upstreams i = .ok upstream ↔ upstreams[i]? = some upstream := by
  rw [LoadBalancer.index]
  cases upstreams[i]? <;> simp [Checked.panicWith, pure, Except.pure]

/-- **A request on a route with several upstreams** takes the one at the counter, and counts. -/
theorem balancer_step (hmany : 2 ≤ route.upstreams.length)
    (h : balancerMachine.step lb route = .ok (lb', upstream)) :
    route.upstreams[lb.counter % route.upstreams.length]? = some upstream ∧
      lb'.counter = (lb.counter + 1) % 2 ^ 64 := by
  have hstep : LoadBalancer.nextUpstream route.upstreams lb = .ok (lb', upstream) := h
  rw [LoadBalancer.nextUpstream, if_neg (by omega), Checked.bind_eq_ok] at hstep
  obtain ⟨u, hindex, hpure⟩ := hstep
  obtain ⟨rfl, rfl⟩ := Prod.mk.inj (Except.ok.inj hpure)
  exact ⟨index_eq_ok.mp hindex, rfl⟩

/-- **The place of a request decides**: it is given the upstream there, modulo how many its route
has. -/
theorem balancer_run {requests : List Route} {upstreams : List String}
    (hmany : ∀ route ∈ requests, 2 ≤ route.upstreams.length)
    (hfew : lb.counter + requests.length < 2 ^ 64)
    (hrun : balancerMachine.run lb requests = .ok (lb', upstreams)) {i : ℕ}
    (hi : (requests.zip upstreams)[i]? = some (route, upstream)) :
    route.upstreams[(lb.counter + i) % route.upstreams.length]? = some upstream := by
  induction requests generalizing lb upstreams i with
  | nil => cases hi
  | cons request requests ih =>
    obtain ⟨lb₁, u, upstreams, hstep, hrest, rfl⟩ := balancerMachine.run_cons_eq_ok.mp hrun
    obtain ⟨hpick, hcounter⟩ := balancer_step (hmany request List.mem_cons_self) hstep
    rw [List.length_cons] at hfew
    rw [Nat.mod_eq_of_lt (by omega)] at hcounter
    cases i with
    | zero =>
      obtain ⟨rfl, rfl⟩ := Prod.mk.inj (Option.some.inj hi)
      exact hpick
    | succ i =>
      have hlater := ih (fun route hroute => hmany route (List.mem_cons_of_mem request hroute))
        (by omega) hrest hi
      rwa [hcounter, Nat.add_right_comm, Nat.add_assoc] at hlater

/-- A pick of the route is one of its requests, at its place. -/
theorem mem_picksOf {requests : List Route} {upstreams : List String} {pick : Pick} :
    pick ∈ picksOf route requests upstreams ↔
      (requests.zip upstreams)[pick.place]? = some (pick.route, pick.upstream) ∧
        pick.route = route := by
  rw [picksOf, List.mem_filter, List.mem_map, decide_eq_true_eq]
  refine and_congr_left fun _ => ⟨?_, fun h => ⟨((pick.route, pick.upstream), pick.place), ?_, rfl⟩⟩
  · rintro ⟨e, he, rfl⟩
    exact List.mem_zipIdx_iff_getElem?.mp he
  · exact List.mem_zipIdx_iff_getElem?.mpr h

/-- The picks are in the order of the requests. -/
theorem picksOf_sorted (requests : List Route) (upstreams : List String) :
    (picksOf route requests upstreams).Pairwise fun a b => a.place < b.place := by
  have hplaces : ((requests.zip upstreams).zipIdx.map Prod.snd).Pairwise (· < ·) := by
    rw [List.zipIdx_map_snd]
    exact List.pairwise_lt_range'
  exact .filter _ (List.pairwise_map.mpr (List.pairwise_map.mp hplaces))

end

/-! ## Fairness -/

/-- **Per-route round robin.**  Of requests on routes that have several upstreams each, fewer than
2^64 in all, take any consecutive ones of a route, as many as it has upstreams: each upstream is
given to one of them exactly if no two of them are a multiple of that number apart, counting the
requests of all routes. -/
theorem eachOnce_iff {requests : List Route} {upstreams : List String} {lb : LoadBalancer}
    (hmany : ∀ route ∈ requests, 2 ≤ route.upstreams.length) (hfew : requests.length < 2 ^ 64)
    (hrun : balancerMachine.run .new requests = .ok (lb, upstreams)) {route : Route}
    (hdistinct : route.upstreams.Nodup) {picks : List Pick}
    (hpicks : picks <:+: picksOf route requests upstreams)
    (hlen : picks.length = route.upstreams.length) :
    (∀ upstream ∈ route.upstreams, (picks.map Pick.upstream).count upstream = 1) ↔
      picks.Pairwise fun a b => ¬ route.upstreams.length ∣ b.place - a.place := by
  have hgiven : ∀ pick ∈ picks,
      route.upstreams[pick.place % route.upstreams.length]? = some pick.upstream := by
    intro pick hpick
    obtain ⟨hplace, rfl⟩ := mem_picksOf.mp (hpicks.subset hpick)
    have hfew' : LoadBalancer.new.counter + requests.length < 2 ^ 64 :=
      (Nat.zero_add _).trans_lt hfew
    have hgiven := balancer_run hmany hfew' hrun hplace
    rwa [LoadBalancer.new, Nat.zero_add] at hgiven
  rw [count_pick_eq_one_iff hdistinct hgiven hlen]
  have hsorted : picks.Pairwise fun a b => a.place < b.place :=
    (picksOf_sorted requests upstreams).sublist hpicks.sublist
  have hdvd : ∀ a b : Pick, a.place < b.place →
      (a.place ≡ b.place [MOD route.upstreams.length] ↔
        route.upstreams.length ∣ b.place - a.place) := fun a b hab =>
    Nat.modEq_iff_dvd' hab.le
  constructor
  · exact fun h => hsorted.imp₂ (fun a b hab hne hapart => hne ((hdvd a b hab).mpr hapart)) h
  · exact fun h => hsorted.imp₂ (fun a b hab hapart heq => hapart ((hdvd a b hab).mp heq)) h

/-- A route with two upstreams. -/
def pairRoute (id upstream upstream' : String) : Route :=
  .ofConfig asciiCases { RouteConfig.plain id ("/" ++ id) upstream with upstreams := [upstream'] }

/-- Two requests on one route use both its upstreams. -/
theorem eachOnce_one_route :
    let r := pairRoute "r" "http://a" "http://b"
    ∀ upstream ∈ r.upstreams,
      ((picksOf r [r, r] ["http://a", "http://b"]).map Pick.upstream).count upstream = 1 := by
  intro r
  have hrun : balancerMachine.run .new [r, r] = .ok (⟨2⟩, ["http://a", "http://b"]) := by decide
  exact (eachOnce_iff (by decide) (by decide) hrun (by decide) (List.infix_refl _) rfl).mpr
    (by decide)

/-- **Two routes that alternate.**  Each has two upstreams, and each is given the same one every
time. -/
theorem alternating_routes :
    let r := pairRoute "r" "http://a" "http://b"
    let s := pairRoute "s" "http://c" "http://d"
    balancerMachine.run .new [r, s, r, s]
        = .ok (⟨4⟩, ["http://a", "http://d", "http://a", "http://d"]) ∧
      picksOf r [r, s, r, s] ["http://a", "http://d", "http://a", "http://d"]
        = [⟨r, "http://a", 0⟩, ⟨r, "http://a", 2⟩] ∧
      ¬ ∀ upstream ∈ r.upstreams, (["http://a", "http://a"] : List String).count upstream = 1 := by
  decide

end PqcGateway
