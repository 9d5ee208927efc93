import Mathlib.Algebra.Order.Group.Unbundled.Basic
import Mathlib.Data.List.Induction
import Mathlib.Tactic.Linarith
import WorkflowEngine.Spec.RateLimiter

/-! The limiter counts what its specification counts: the requests of the key that were let through
in the window that ends now. All else about its runs follows from that. -/

namespace WorkflowEngine

namespace RateLimiterMiddleware

variable {settings : RateLimitSettings}

theorem dispatchFrom_append (requests : RateWindows) (xs ys : List TimedRequest) :
    dispatchFrom settings requests (xs ++ ys) = dispatchFrom settings requests xs ++
      dispatchFrom settings (xs.foldl (fun w a => (dispatch settings w a).2) requests) ys := by
  induction xs generalizing requests with
  | nil => rfl
  | cons a xs ih => rw [List.cons_append, dispatchFrom, ih, dispatchFrom, List.foldl_cons,
      List.cons_append]

theorem dispatchAll_snoc (xs : List TimedRequest) (a : TimedRequest) :
    dispatchAll settings (xs ++ [a]) =
      dispatchAll settings xs ++ [(a, (dispatch settings (windowsAfter settings xs) a).1)] :=
  dispatchFrom_append _ xs [a]

theorem windowsAfter_snoc (xs : List TimedRequest) (a : TimedRequest) :
    windowsAfter settings (xs ++ [a]) = (dispatch settings (windowsAfter settings xs) a).2 := by
  rw [windowsAfter, List.foldl_append]
  rfl

theorem fst_dispatchFrom (requests : RateWindows) (xs : List TimedRequest) :
    (dispatchFrom settings requests xs).map Prod.fst = xs := by
  induction xs generalizing requests with
  | nil => rfl
  | cons a xs ih => rw [dispatchFrom, List.map_cons, ih]

theorem admitted_append (key : String) (h h' : List (TimedRequest × RateVerdict)) :
    admitted key (h ++ h') = admitted key h ++ admitted key h' := by
  simp [admitted]

/-- Whoever was let through came in. -/
theorem exists_of_mem_admitted {key : String} {xs : List TimedRequest} {t : ℚ}
    (h : t ∈ admitted key (dispatchAll settings xs)) : ∃ a ∈ xs, a.now = t := by
  obtain ⟨x, hx, rfl⟩ := List.mem_map.1 h
  refine ⟨x.1, ?_, rfl⟩
  rw [← @fst_dispatchFrom settings (fun _ => []) xs]
  exact List.mem_map_of_mem (List.mem_filter.1 hx).1

/-- The specification: the verdict is read off what was let through before. -/
def verdictOf (settings : RateLimitSettings) (history : List (TimedRequest × RateVerdict))
    (a : TimedRequest) : RateVerdict :=
  if settings.rateLimitRequests ≤ (admitted (getKey a.request) history).countP
      fun t => a.now - settings.rateLimitWindowSeconds < t ∧ t ≤ a.now then
    .rateLimited settings.rateLimitWindowSeconds
  else .callNext

theorem verdictOf_congr {h h' : List (TimedRequest × RateVerdict)} {a : TimedRequest}
    (heq : admitted (getKey a.request) h = admitted (getKey a.request) h') :
    verdictOf settings h a = verdictOf settings h' a := by
  rw [verdictOf, heq, verdictOf]

theorem verdictOf_eq_callNext {h : List (TimedRequest × RateVerdict)} {a : TimedRequest} :
    verdictOf settings h a = .callNext ↔
      ((admitted (getKey a.request) h).countP fun t =>
        a.now - settings.rateLimitWindowSeconds < t ∧ t ≤ a.now) <
          settings.rateLimitRequests := by
  rw [verdictOf]
  split
  next h => exact iff_of_false (by simp) (by omega)
  next h => exact iff_of_true rfl (by omega)

theorem unexpired_twice {now now' : ℚ} (h : now ≤ now') (times : List ℚ) :
    unexpired settings now' (unexpired settings now times) = unexpired settings now' times := by
  rw [unexpired, unexpired, unexpired, List.filter_filter]
  apply List.filter_congr
  intro ts _
  have hle : now - ts ≤ now' - ts := by linarith
  simp only [← Bool.decide_and, decide_eq_decide]
  exact ⟨And.left, fun hts => ⟨hts, lt_of_le_of_lt hle hts⟩⟩

theorem unexpired_append (now : ℚ) (xs ys : List ℚ) :
    unexpired settings now (xs ++ ys) = unexpired settings now xs ++ unexpired settings now ys :=
  List.filter_append ..

/-- Requests that the limiter looks at, in the order of their times. -/
structure Limited (settings : RateLimitSettings) (arrivals : List TimedRequest) : Prop where
  enabled : settings.rateLimitEnabled = true
  path : ∀ a ∈ arrivals, a.request.path ≠ "/health"
  times : arrivals.Pairwise fun a b => a.now ≤ b.now

namespace Limited

variable {arrivals xs ys : List TimedRequest} {a : TimedRequest}

theorem sublist (h : Limited settings ys) (hsub : xs.Sublist ys) : Limited settings xs where
  enabled := h.enabled
  path a ha := h.path a (hsub.subset ha)
  times := h.times.sublist hsub

theorem of_snoc (h : Limited settings (xs ++ [a])) : Limited settings xs :=
  h.sublist (List.sublist_append_left ..)

theorem le_last (h : Limited settings (xs ++ [a])) : ∀ b ∈ xs, b.now ≤ a.now := by
  intro b hb
  exact (List.pairwise_append.1 h.times).2.2 b hb a (List.mem_singleton.2 rfl)

theorem dispatch_cases (h : Limited settings (xs ++ [a])) (requests : RateWindows) :
    let kept := unexpired settings a.now (requests (getKey a.request))
    (settings.rateLimitRequests ≤ kept.length ∧
      dispatch settings requests a = (.rateLimited settings.rateLimitWindowSeconds,
        Function.update requests (getKey a.request) kept)) ∨
    (kept.length < settings.rateLimitRequests ∧
      dispatch settings requests a = (.callNext,
        Function.update requests (getKey a.request) (kept ++ [a.now]))) := by
  intro kept
  have ha : a.request.path ≠ "/health" := h.path a (by simp)
  rw [dispatch, h.enabled, if_neg (by simp), if_neg ha]
  by_cases hfull : settings.rateLimitRequests ≤ kept.length
  · exact .inl ⟨hfull, if_pos hfull⟩
  · exact .inr ⟨not_le.1 hfull, if_neg hfull⟩

/-- Whatever a list still counts at a time, the whole history counts, and the other way round. -/
theorem unexpired_windowsAfter (h : Limited settings xs) (key : String) (t : ℚ)
    (ht : ∀ a ∈ xs, a.now ≤ t) :
    unexpired settings t (windowsAfter settings xs key) =
      unexpired settings t (admitted key (dispatchAll settings xs)) := by
  induction xs using List.reverseRecOn generalizing t with
  | nil => rfl
  | append_singleton xs a ih =>
    have hat : a.now ≤ t := ht a (by simp)
    have hxs := ih h.of_snoc t fun b hb => ht b (by simp [hb])
    rw [windowsAfter_snoc, dispatchAll_snoc, admitted_append, unexpired_append, ← hxs]
    rcases h.dispatch_cases (windowsAfter settings xs) with ⟨-, hd⟩ | ⟨-, hd⟩
    all_goals rw [hd]; dsimp only
    · rcases eq_or_ne key (getKey a.request) with rfl | hkey
      · rw [Function.update_self, unexpired_twice hat]
        simp [admitted, unexpired]
      · rw [Function.update_of_ne hkey]
        simp [admitted, unexpired]
    · rcases eq_or_ne key (getKey a.request) with rfl | hkey
      · rw [Function.update_self, unexpired_append, unexpired_twice hat]
        simp [admitted]
      · rw [Function.update_of_ne hkey]
        simp [admitted, unexpired, hkey.symm]

/-- The code meets the specification. -/
theorem dispatchAll_snoc (h : Limited settings (xs ++ [a])) :
    dispatchAll settings (xs ++ [a]) =
      dispatchAll settings xs ++ [(a, verdictOf settings (dispatchAll settings xs) a)] := by
  have hkept := h.of_snoc.unexpired_windowsAfter (getKey a.request) a.now h.le_last
  have hcount : (unexpired settings a.now
      (admitted (getKey a.request) (dispatchAll settings xs))).length =
      (admitted (getKey a.request) (dispatchAll settings xs)).countP fun t =>
        a.now - settings.rateLimitWindowSeconds < t ∧ t ≤ a.now := by
    rw [unexpired, ← List.countP_eq_length_filter]
    apply List.countP_congr
    intro t ht
    obtain ⟨b, hb, rfl⟩ := exists_of_mem_admitted ht
    have hle := h.le_last b hb
    simp only [decide_eq_true_eq, hle, and_true]
    exact sub_lt_comm
  rw [RateLimiterMiddleware.dispatchAll_snoc, verdictOf, ← hcount, ← hkept]
  rcases h.dispatch_cases (windowsAfter settings xs) with ⟨hfull, hd⟩ | ⟨hfull, hd⟩
  all_goals rw [hd]
  · rw [if_pos hfull]
  · rw [if_neg (not_le.2 hfull)]

/-- The times that lie closer together than a window: as many as the window lets through. -/
theorem countP_admitted_le (h : Limited settings xs) (key : String) {p : ℚ → Bool}
    (hp : ∀ t u, p t → p u → u - settings.rateLimitWindowSeconds < t) :
    ((admitted key (dispatchAll settings xs)).countP p : ℤ) ≤
      max settings.rateLimitRequests 0 := by
  induction xs using List.reverseRecOn with
  | nil => exact le_max_right _ _
  | append_singleton xs a ih =>
    have hxs := ih h.of_snoc
    rw [h.dispatchAll_snoc, admitted_append, List.countP_append]
    by_cases ha : getKey a.request = key ∧
        verdictOf settings (dispatchAll settings xs) a = .callNext ∧ p a.now
    · obtain ⟨rfl, hcall, hpa⟩ := ha
      -- What is counted was let through before `a` and less than a window ago.
      have hle : (admitted (getKey a.request) (dispatchAll settings xs)).countP p ≤
          (admitted (getKey a.request) (dispatchAll settings xs)).countP fun t =>
            a.now - settings.rateLimitWindowSeconds < t ∧ t ≤ a.now := by
        apply List.countP_mono_left
        intro t ht hpt
        obtain ⟨b, hb, rfl⟩ := exists_of_mem_admitted ht
        exact decide_eq_true ⟨hp _ _ hpt hpa, h.le_last b hb⟩
      have hlt := verdictOf_eq_callNext.1 hcall
      simp only [admitted, hcall, hpa, and_self, decide_true, List.filter_cons_of_pos,
        List.filter_nil, List.map_cons, List.map_nil, List.countP_singleton, if_true] at hle hlt ⊢
      omega
    · have hnone : (admitted key
          [(a, verdictOf settings (dispatchAll settings xs) a)]).countP p = 0 := by
        rw [List.countP_eq_zero]
        intro t ht hpt
        obtain ⟨x, hx, rfl⟩ := List.mem_map.1 ht
        obtain ⟨hx, hkept⟩ := List.mem_filter.1 hx
        obtain rfl := List.mem_singleton.1 hx
        have hkept := of_decide_eq_true hkept
        exact ha ⟨hkept.1, hkept.2, hpt⟩
      rw [hnone, Nat.add_zero]
      exact hxs

/-- A request that is not let through changes no other verdict. -/
theorem dispatchAll_erase (h : Limited settings (xs ++ a :: ys))
    (hrejected : verdictOf settings (dispatchAll settings xs) a ≠ .callNext) :
    ∃ rest, dispatchAll settings (xs ++ a :: ys) = dispatchAll settings xs ++
        (a, verdictOf settings (dispatchAll settings xs) a) :: rest ∧
      dispatchAll settings (xs ++ ys) = dispatchAll settings xs ++ rest := by
  induction ys using List.reverseRecOn with
  | nil => exact ⟨[], h.dispatchAll_snoc, by simp⟩
  | append_singleton ys b ih =>
    have hwith : Limited settings ((xs ++ a :: ys) ++ [b]) := by simpa using h
    have hwithout : Limited settings ((xs ++ ys) ++ [b]) :=
      hwith.sublist (by simp)
    obtain ⟨rest, hrest, hrest'⟩ := ih hwith.of_snoc
    have hsame : verdictOf settings (dispatchAll settings (xs ++ a :: ys)) b =
        verdictOf settings (dispatchAll settings (xs ++ ys)) b := by
      apply verdictOf_congr
      rw [hrest, hrest', admitted_append, admitted_append]
      simp [admitted, hrejected]
    refine ⟨rest ++ [(b, verdictOf settings (dispatchAll settings (xs ++ ys)) b)], ?_, ?_⟩
    · rw [← List.cons_append, ← List.append_assoc, hwith.dispatchAll_snoc, hsame, hrest]
      simp
    · rw [← List.append_assoc, hwithout.dispatchAll_snoc, hrest', List.append_assoc]

theorem dispatchAll_filter (h : Limited settings xs) (key : String) :
    (dispatchAll settings xs).filter (fun x => getKey x.1.request = key) =
      dispatchAll settings (xs.filter fun a => getKey a.request = key) := by
  induction xs using List.reverseRecOn with
  | nil => rfl
  | append_singleton xs a ih =>
    have hsub := List.filter_sublist (p := fun a => getKey a.request = key) (l := xs ++ [a])
    have hfiltered := h.sublist hsub
    rw [h.dispatchAll_snoc, List.filter_append, ih h.of_snoc]
    rw [List.filter_append] at hfiltered ⊢
    by_cases hkey : getKey a.request = key
    · obtain rfl := hkey
      have hsame : verdictOf settings (dispatchAll settings xs) a = verdictOf settings
          (dispatchAll settings (xs.filter fun b => getKey b.request = getKey a.request)) a := by
        apply verdictOf_congr
        rw [← ih h.of_snoc, admitted, admitted, List.filter_filter]
        congr 1
        apply List.filter_congr
        intro x _
        by_cases hx : getKey x.1.request = getKey a.request <;> simp [hx]
      rw [List.filter_cons_of_pos (by simp), List.filter_cons_of_pos (by simp), List.filter_nil,
        List.filter_nil]
      rw [List.filter_cons_of_pos (by simp), List.filter_nil] at hfiltered
      rw [hfiltered.dispatchAll_snoc, hsame]
    · rw [List.filter_cons_of_neg (by simpa using hkey),
        List.filter_cons_of_neg (by simpa using hkey), List.filter_nil, List.filter_nil,
        List.append_nil, List.append_nil]

end Limited

theorem dispatchAll_slidingWindow (settings : RateLimitSettings) (arrivals : List TimedRequest)
    (h : Limited settings arrivals) :
    (∀ before a after, arrivals = before ++ a :: after → ∃ verdict rest,
      dispatchAll settings arrivals = dispatchAll settings before ++ (a, verdict) :: rest ∧
      (verdict = .callNext ↔
        ((admitted (getKey a.request) (dispatchAll settings before)).countP fun t : ℚ =>
          a.now - settings.rateLimitWindowSeconds < t ∧ t ≤ a.now) <
            settings.rateLimitRequests) ∧
      (verdict ≠ .callNext →
        dispatchAll settings (before ++ after) = dispatchAll settings before ++ rest)) ∧
    (∀ key start,
      ((admitted key (dispatchAll settings arrivals)).countP fun t : ℚ =>
        start < t ∧ t ≤ start + settings.rateLimitWindowSeconds) ≤
          max settings.rateLimitRequests 0 ∧
      ((admitted key (dispatchAll settings arrivals)).countP fun t : ℚ =>
        start ≤ t ∧ t < start + settings.rateLimitWindowSeconds) ≤
          max settings.rateLimitRequests 0) ∧
    ∀ key, (dispatchAll settings arrivals).filter (fun x => getKey x.1.request = key) =
      dispatchAll settings (arrivals.filter fun a => getKey a.request = key) := by
  refine ⟨?_, fun key start => ⟨?_, ?_⟩, h.dispatchAll_filter⟩
  · rintro before a after rfl
    have hbefore : Limited settings (before ++ [a]) := h.sublist (by simp)
    by_cases hcall : verdictOf settings (dispatchAll settings before) a = .callNext
    · refine ⟨_, dispatchFrom settings (windowsAfter settings (before ++ [a])) after, ?_,
        verdictOf_eq_callNext, fun h => absurd hcall h⟩
      rw [List.append_cons before, List.append_cons (dispatchAll settings before),
        ← hbefore.dispatchAll_snoc]
      exact dispatchFrom_append _ (before ++ [a]) after
    · obtain ⟨rest, hrest, herase⟩ := h.dispatchAll_erase hcall
      exact ⟨_, rest, hrest, verdictOf_eq_callNext, fun _ => herase⟩
  · apply h.countP_admitted_le key
    intro t u ht hu
    simp only [decide_eq_true_eq] at ht hu
    linarith
  · apply h.countP_admitted_le key
    intro t u ht hu
    simp only [decide_eq_true_eq] at ht hu
    linarith

/-- The third request of a client in a minute is turned away, another client's is not. -/
theorem dispatchAll_slidingWindow_two :
    let settings : RateLimitSettings := ⟨true, 2, 60⟩
    let request (host : String) : LimitedRequest := ⟨none, some host, "/api/chat"⟩
    let arrivals : List TimedRequest := [⟨request "a", 0⟩, ⟨request "a", 1⟩,
      ⟨request "a", 59⟩, ⟨request "b", 59⟩, ⟨request "a", 60⟩]
    (dispatchAll settings arrivals).map Prod.snd =
      [.callNext, .callNext, .rateLimited 60, .callNext, .callNext] ∧
    (dispatchAll settings arrivals).filter (fun x => getKey x.1.request = "ip:a") =
      dispatchAll settings (arrivals.filter fun a => getKey a.request = "ip:a") := by
  intro settings request arrivals
  have h : Limited settings arrivals := ⟨rfl, by decide, by decide⟩
  exact ⟨by decide +kernel, (dispatchAll_slidingWindow settings arrivals h).2.2 "ip:a"⟩

end RateLimiterMiddleware

end WorkflowEngine
