import Aetheris.Lib.Lookup
import Aetheris.Lib.Window
import Mathlib.Algebra.Ring.Nat

/-!
# The telemetry service

The limiter of the telemetry endpoint keeps the number of requests and the start of the window of
each address. A check on a large table first drops the entries whose window started two minutes ago:
nobody can tell. Windows are fixed, not sliding: two of them can meet in any minute unless the
address rests between them. The fields of an event are cut to the longest clean prefix that fits.
-/

namespace Aetheris.Telemetry

open Keeper

def rateLimitMax : Nat := 60

def rateLimitWindowSecs : Nat := 60

def pruneThreshold : Nat := 1000

/-- `request_count` and `window_start_secs`. No count passes `RATE_LIMIT_MAX` and times are only
subtracted, with saturation, so neither width matters. -/
abbrev Entry := Nat × Nat

structure AetherisTelemetryService (Ip : Type) where
  rateLimits : AList fun _ : Ip => Entry

/-- One call of `check_rate_limit`, with the readings of the clock in the sweep and in the check. -/
structure Request (Ip : Type) where
  ip : Ip
  sweptAt : Nat
  now : Nat

namespace AetherisTelemetryService

variable {Ip : Type} [DecidableEq Ip]

def new : AetherisTelemetryService Ip := ⟨∅⟩

def pruneExpiredEntries (s : AetherisTelemetryService Ip) (now : Nat) :
    AetherisTelemetryService Ip :=
  ⟨s.rateLimits.retain fun e => now - e.2.2 < 2 * rateLimitWindowSecs⟩

/-- The part of `check_rate_limit` after the sweep. -/
def countRequest (s : AetherisTelemetryService Ip) (ip : Ip) (now : Nat) :
    AetherisTelemetryService Ip × Bool :=
  let (count, windowStart) := (s.rateLimits.lookup ip).getD (0, now)
  if now - windowStart ≥ rateLimitWindowSecs then (⟨s.rateLimits.insert ip (1, now)⟩, true)
  else if count < rateLimitMax then (⟨s.rateLimits.insert ip (count + 1, windowStart)⟩, true)
  else (⟨s.rateLimits.insert ip (count, windowStart)⟩, false)

def checkRateLimit (s : AetherisTelemetryService Ip) (r : Request Ip) :
    AetherisTelemetryService Ip × Bool :=
  let s :=
    if s.rateLimits.entries.length > pruneThreshold then s.pruneExpiredEntries r.sweptAt else s
  s.countRequest r.ip r.now

/-! ## Runs -/

/-- What a request is answered, and the entry of its address after it. -/
structure Outcome (Ip : Type) where
  ip : Ip
  now : Nat
  allowed : Bool
  entry : Option Entry

def serve (s : AetherisTelemetryService Ip) (r : Request Ip) :
    AetherisTelemetryService Ip × List (Outcome Ip) :=
  let (s, allowed) := s.checkRateLimit r
  (s, [⟨r.ip, r.now, allowed, s.rateLimits.lookup r.ip⟩])

/-- The same without sweeps. -/
def serveUnpruned (s : AetherisTelemetryService Ip) (r : Request Ip) :
    AetherisTelemetryService Ip × List (Outcome Ip) :=
  let (s, allowed) := s.countRequest r.ip r.now
  (s, [⟨r.ip, r.now, allowed, s.rateLimits.lookup r.ip⟩])

/-- No reading of the clock is earlier than the one before it. -/
abbrev Timely (t : Nat) (rs : List (Request Ip)) : Prop :=
  Ordered id t (rs.flatMap fun r => [r.sweptAt, r.now])

/-! ## One entry -/

def keeper : Keeper Entry where
  check o now :=
    let (count, windowStart) := o.getD (0, now)
    if now - windowStart ≥ rateLimitWindowSecs then ((1, now), true)
    else if count < rateLimitMax then ((count + 1, windowStart), true)
    else ((count, windowStart), false)
  stale e now := !decide (now - e.2 < 2 * rateLimitWindowSecs)

theorem countRequest_eq (s : AetherisTelemetryService Ip) (ip : Ip) (now : Nat) :
    s.countRequest ip now = (⟨s.rateLimits.insert ip (keeper.check (s.rateLimits.lookup ip) now).1⟩,
      (keeper.check (s.rateLimits.lookup ip) now).2) := by
  simp only [countRequest, keeper]
  split
  · rfl
  · split
    · rfl
    · rfl

theorem lookup_pruneExpiredEntries (s : AetherisTelemetryService Ip) (now : Nat) (ip : Ip) :
    (s.pruneExpiredEntries now).rateLimits.lookup ip =
      keeper.sweep (s.rateLimits.lookup ip) now := by
  rw [pruneExpiredEntries, AList.lookup_retain]
  simp [Keeper.sweep, keeper]

/-- Two minutes after its start a window would be replaced by the next check. -/
theorem spent_of_stale {e : Entry} {t : Nat} (h : keeper.stale e t = true) : keeper.Spent e t := by
  intro now hnow
  have hstale : ¬ t - e.2 < 2 * rateLimitWindowSecs := by simpa [keeper] using h
  have hover : now - e.2 ≥ rateLimitWindowSecs := by
    unfold rateLimitWindowSecs at hstale ⊢
    omega
  have hfresh : ¬ now - now ≥ rateLimitWindowSecs := by simp [rateLimitWindowSecs]
  simp only [keeper, Option.getD_some, Option.getD_none, if_pos hover, if_neg hfresh]
  rfl

/-- The table with sweeps and the one without. -/
def Agree (t : Nat) (s u : AetherisTelemetryService Ip) : Prop :=
  ∀ ip, keeper.Stands t (s.rateLimits.lookup ip) (u.rateLimits.lookup ip)

theorem Agree.swept {t : Nat} {s u : AetherisTelemetryService Ip} (h : Agree t s u) {now : Nat}
    (hle : t ≤ now) : Agree now
      (if s.rateLimits.entries.length > pruneThreshold then s.pruneExpiredEntries now
        else s) u := by
  intro ip
  split
  · rw [lookup_pruneExpiredEntries]
    exact (h ip).sweep hle fun e _ hstale => spent_of_stale hstale
  · exact (h ip).mono hle

theorem Agree.countRequest {t : Nat} {s u : AetherisTelemetryService Ip} (h : Agree t s u)
    (ip : Ip) {now : Nat} (hle : t ≤ now) : Agree now (s.countRequest ip now).1
      (u.countRequest ip now).1 ∧ (s.countRequest ip now).2 = (u.countRequest ip now).2 := by
  have hcheck := (h ip).check hle
  rw [countRequest_eq, countRequest_eq, hcheck]
  refine ⟨fun ip' => ?_, rfl⟩
  by_cases hip : ip' = ip
  · subst hip
    rw [AList.lookup_insert, AList.lookup_insert]
    exact Or.inl rfl
  · rw [AList.lookup_insert_ne hip, AList.lookup_insert_ne hip]
    exact (h ip').mono hle

theorem lookup_countRequest (s : AetherisTelemetryService Ip) (ip : Ip) (now : Nat) :
    (s.countRequest ip now).1.rateLimits.lookup ip =
      some (keeper.check (s.rateLimits.lookup ip) now).1 := by
  rw [countRequest_eq]
  exact AList.lookup_insert _

theorem serve_of_agree (rs : List (Request Ip)) : ∀ {t : Nat} {s u : AetherisTelemetryService Ip},
    Timely t rs → Agree t s u → (fires serve s rs).2 = (fires serveUnpruned u rs).2 := by
  induction rs with
  | nil => exact fun _ _ => rfl
  | cons r rs ih =>
    intro t s u htimely hagree
    obtain ⟨hswept, hnow, hrest⟩ : t ≤ r.sweptAt ∧ r.sweptAt ≤ r.now ∧ Timely r.now rs := htimely
    have hs := hagree.swept hswept
    obtain ⟨hnext, hallowed⟩ := hs.countRequest r.ip hnow
    have hentry := (hs r.ip).check hnow
    have hout : (serve s r).2 = (serveUnpruned u r).2 := by
      simp only [serve, serveUnpruned, checkRateLimit, hallowed, lookup_countRequest, hentry]
    exact congrArg₂ (· ++ ·) hout (ih hrest hnext)

def rule : WindowRule where
  limit := rateLimitMax
  span := rateLimitWindowSecs
  past reset now := decide (reset ≤ now)
  stale reset now := decide (reset + rateLimitWindowSecs ≤ now)
  limit_pos := by decide
  past_le _ _ h := of_decide_eq_true h
  stale_le _ _ h := Nat.le_of_add_right_le (of_decide_eq_true h)

def view (e : Entry) : Window := ⟨e.1, e.2 + rateLimitWindowSecs⟩

theorem check_view (o : Option Entry) (now : Nat) :
    rule.keeper.check (o.map view) now = (view (keeper.check o now).1, (keeper.check o now).2) := by
  by_cases hover : ∀ e ∈ o, now - e.2 ≥ rateLimitWindowSecs
  · have hfresh : keeper.check o now = ((1, now), true) := by
      cases o with
      | none => simp [keeper, rateLimitWindowSecs, rateLimitMax]
      | some e => simp [keeper, hover e rfl]
    rw [WindowRule.check_over, hfresh]
    · rfl
    · intro w hw
      obtain ⟨e, he, rfl⟩ := Option.mem_map.mp hw
      have := hover e he
      simp only [rule, view, decide_eq_true_eq]
      unfold rateLimitWindowSecs at this ⊢
      omega
  · obtain ⟨e, rfl, hlive⟩ : ∃ e, o = some e ∧ ¬ now - e.2 ≥ rateLimitWindowSecs := by
      simpa using hover
    have hlive' : rule.past (view e).reset now = false := by
      simp only [rule, view, decide_eq_false_iff_not]
      unfold rateLimitWindowSecs at hlive ⊢
      omega
    rw [Option.map_some, WindowRule.check_live hlive']
    by_cases hcount : e.1 < rateLimitMax
    · have hcount' : (view e).count < rule.limit := hcount
      simp only [if_pos hcount', keeper, Option.getD_some, if_neg hlive, if_pos hcount]
      rfl
    · have hcount' : ¬ (view e).count < rule.limit := hcount
      simp only [if_neg hcount', keeper, Option.getD_some, if_neg hlive, if_neg hcount]

/-- The requests of one address. -/
def checksOf (ip : Ip) (rs : List (Request Ip)) : List Probe :=
  rs.filterMap fun r => if r.ip = ip then some (.check r.now) else none

def answersOf (ip : Ip) (outs : List (Outcome Ip)) : List (Nat × Bool) :=
  outs.filterMap fun o => if o.ip = ip then some (o.now, o.allowed) else none

theorem answersOf_unpruned (ip : Ip) (rs : List (Request Ip)) (s : AetherisTelemetryService Ip) :
    answersOf ip (fires serveUnpruned s rs).2 =
      (keeper.answers (s.rateLimits.lookup ip) (checksOf ip rs)).map
        fun a => (a.now, a.granted) := by
  induction rs generalizing s with
  | nil => rfl
  | cons r rs ih =>
    have hrest := ih (s.countRequest r.ip r.now).1
    have hcount := countRequest_eq s r.ip r.now
    by_cases hip : r.ip = ip
    · subst hip
      rw [lookup_countRequest] at hrest
      simp_all [fires, serveUnpruned, answersOf, checksOf, answers]
    · have hne : (s.countRequest r.ip r.now).1.rateLimits.lookup ip = s.rateLimits.lookup ip := by
        rw [hcount]
        exact AList.lookup_insert_ne (Ne.symm hip)
      rw [hne] at hrest
      simp_all [fires, serveUnpruned, answersOf, checksOf]

/-- How the requests of an address fall into its windows. -/
def windowsOf (ip : Ip) (rs : List (Request Ip)) : List (List Nat) :=
  (rule.cut none (checksOf ip rs)).2

theorem answersOf_serve (ip : Ip) {rs : List (Request Ip)} (h : Timely 0 rs) :
    answersOf ip (fires serve new rs).2 = (windowsOf ip rs).flatMap (rule.grant 0) := by
  have hstale : ∀ (e : Entry) now, rule.stale (view e).reset now = keeper.stale e now := by
    intro e now
    show decide (e.2 + rateLimitWindowSecs + rateLimitWindowSecs ≤ now) =
      !decide (now - e.2 < 2 * rateLimitWindowSecs)
    rw [← decide_not, decide_eq_decide]
    unfold rateLimitWindowSecs
    omega
  rw [serve_of_agree rs h fun _ => Or.inl rfl, answersOf_unpruned]
  exact WindowRule.answers_of_view check_view hstale _

/-- If an address rests for a minute before each of its windows but the first, it never gets more
than the limit within a minute. -/
theorem minute_bound (rs : List (Request Ip)) (h : Timely 0 rs) (ip : Ip)
    (hrests : rule.Rested (windowsOf ip rs)) (x : Nat) :
    (fires serve new rs).2.countP (fun o => decide (o.ip = ip) && (o.allowed &&
      decide (x ≤ o.now ∧ o.now < x + rateLimitWindowSecs))) ≤ rateLimitMax := by
  have hbound : (answersOf ip (fires serve new rs).2).countP (fun a => a.2 &&
      decide (x ≤ a.1 ∧ a.1 < x + rateLimitWindowSecs)) ≤ rateLimitMax := by
    rw [answersOf_serve ip h]
    exact hrests.within_le
  rw [answersOf, List.countP_filterMap] at hbound
  refine Nat.le_trans (Nat.le_of_eq ?_) hbound
  refine List.countP_congr fun o _ => ?_
  by_cases hip : o.ip = ip
  · simp [hip]
  · simp [hip]

/-- Two requests, and a third a minute and more after the second. -/
def calm : List (Request Unit) := [⟨(), 0, 0⟩, ⟨(), 30, 30⟩, ⟨(), 100, 100⟩]

theorem minute_bound_calm : Timely 0 calm ∧ windowsOf () calm = [[0, 30], [100]] ∧
    ∀ x, (fires serve new calm).2.countP (fun o => decide (o.ip = ()) && (o.allowed &&
      decide (x ≤ o.now ∧ o.now < x + rateLimitWindowSecs))) ≤ rateLimitMax := by
  refine ⟨by decide, by decide, minute_bound calm (by decide) () ?_⟩
  rw [show windowsOf () calm = [[0, 30], [100]] by decide, WindowRule.Rested]
  decide

/-- A window that is used up in its last second, and the next one in its first. -/
def rush : List (Request Unit) :=
  ⟨(), 0, 0⟩ :: List.replicate 59 ⟨(), 59, 59⟩ ++ List.replicate 60 ⟨(), 60, 60⟩

theorem rush_two_seconds : Timely 0 rush ∧
    (fires serve new rush).2.countP (fun o => decide (o.ip = ()) && (o.allowed &&
      decide (59 ≤ o.now ∧ o.now < 59 + rateLimitWindowSecs))) = 119 := by
  decide +kernel

end AetherisTelemetryService

/-! ## Fields

A string is the list of its characters; its bytes are counted, not stored. -/

/-- The control characters of Unicode. -/
def isControl (c : Char) : Bool :=
  c.toNat < 0x20 || (0x7f ≤ c.toNat && c.toNat < 0xa0)

/-- `len`, the number of bytes. -/
def byteLen (cs : List Char) : Nat := (cs.map Char.utf8Size).sum

/-- `char_indices`, for a string that starts at byte `i`. -/
def charIndices : Nat → List Char → List (Nat × Char)
  | _, [] => []
  | i, c :: cs => (i, c) :: charIndices (i + c.utf8Size) cs

/-- The slice `[..n]`. It panics unless `n` is a character boundary. -/
def sliceTo : Nat → List Char → Option (List Char)
  | 0, _ => some []
  | _ + 1, [] => none
  | n + 1, c :: cs =>
    if c.utf8Size ≤ n + 1 then (sliceTo (n + 1 - c.utf8Size) cs).map (c :: ·) else none

def sanitize (s : List Char) (maxLen : Nat) : Option (List Char) :=
  let clean := s.filter fun c => !isControl c
  if byteLen clean ≤ maxLen then some clean
  else
    match ((charIndices 0 clean).takeWhile fun p => p.1 + p.2.utf8Size ≤ maxLen).getLast? with
    | none => some []
    | some (i, c) => sliceTo (i + c.utf8Size) clean

/-- The longest prefix that fits when `i` bytes are used already. -/
def fitting (maxLen : Nat) : Nat → List Char → List Char
  | _, [] => []
  | i, c :: cs =>
    if i + c.utf8Size ≤ maxLen then c :: fitting maxLen (i + c.utf8Size) cs else []

@[simp] theorem byteLen_cons (c : Char) (cs : List Char) :
    byteLen (c :: cs) = c.utf8Size + byteLen cs := List.sum_cons

theorem fitting_start (maxLen i : Nat) (cs : List Char) : fitting maxLen i cs <+: cs := by
  induction cs generalizing i with
  | nil => exact List.prefix_refl _
  | cons c cs ih =>
    rw [fitting]
    split
    · exact (List.prefix_cons_inj c).mpr (ih _)
    · exact List.nil_prefix

variable {maxLen : Nat}

theorem byteLen_fitting {i : Nat} (hi : i ≤ maxLen) (cs : List Char) :
    i + byteLen (fitting maxLen i cs) ≤ maxLen := by
  induction cs generalizing i with
  | nil => exact hi
  | cons c cs ih =>
    rw [fitting]
    split
    · next hfits =>
      have hrest := ih hfits
      rw [byteLen_cons]
      omega
    · exact hi

theorem prefix_fitting {i : Nat} {p cs : List Char} (h : p <+: cs)
    (hlen : i + byteLen p ≤ maxLen) : p <+: fitting maxLen i cs := by
  induction cs generalizing i p with
  | nil =>
    rw [List.prefix_nil.mp h]
    exact List.nil_prefix
  | cons c cs ih =>
    cases p with
    | nil => exact List.nil_prefix
    | cons c' p =>
      obtain ⟨rfl, hp⟩ := List.cons_prefix_cons.mp h
      rw [byteLen_cons] at hlen
      rw [fitting, if_pos (by omega)]
      exact (List.prefix_cons_inj c').mpr (ih hp (by omega))

theorem takeWhile_charIndices (i : Nat) (cs : List Char) :
    (charIndices i cs).takeWhile (fun p => p.1 + p.2.utf8Size ≤ maxLen) =
      charIndices i (fitting maxLen i cs) := by
  induction cs generalizing i with
  | nil => rfl
  | cons c cs ih =>
    by_cases hfits : i + c.utf8Size ≤ maxLen
    · simp [charIndices, fitting, hfits, ih]
    · simp [charIndices, fitting, hfits]

/-- The last character ends where the string does. -/
theorem end_charIndices {i j : Nat} {c : Char} {cs : List Char}
    (h : (charIndices i cs).getLast? = some (j, c)) : j + c.utf8Size = i + byteLen cs := by
  induction cs generalizing i with
  | nil => cases h
  | cons c' cs ih =>
    cases cs with
    | nil =>
      cases h
      rfl
    | cons d cs =>
      have hrest := ih (i := i + c'.utf8Size) (by simpa [charIndices] using h)
      rw [hrest, byteLen_cons c', Nat.add_assoc]

theorem sliceTo_byteLen (p rest : List Char) : sliceTo (byteLen p) (p ++ rest) = some p := by
  induction p with
  | nil => exact sliceTo.eq_1 _
  | cons c p ih =>
    obtain ⟨n, hn⟩ : ∃ n, byteLen (c :: p) = n + 1 :=
      Nat.exists_eq_add_one.mpr (Nat.lt_of_lt_of_le c.utf8Size_pos (by simp))
    have hlen : n + 1 - c.utf8Size = byteLen p := by
      rw [← hn, byteLen_cons]
      omega
    have hle : c.utf8Size ≤ n + 1 := by
      rw [← hn, byteLen_cons]
      omega
    rw [hn, List.cons_append, sliceTo, if_pos hle, hlen, ih]
    rfl

theorem sanitize_eq (s : List Char) (maxLen : Nat) :
    sanitize s maxLen = some (fitting maxLen 0 (s.filter fun c => !isControl c)) := by
  unfold sanitize
  generalize (s.filter fun c => !isControl c) = clean
  dsimp only
  split
  · next hfits =>
    have hall : clean <+: fitting maxLen 0 clean :=
      prefix_fitting (List.prefix_refl clean) (by omega)
    rw [(fitting_start maxLen 0 clean).eq_of_length_le hall.length_le]
  · rw [takeWhile_charIndices]
    obtain ⟨rest, hrest⟩ := fitting_start maxLen 0 clean
    generalize fitting maxLen 0 clean = p at hrest
    split
    · next hlast =>
      cases p with
      | nil => rfl
      | cons c p => simp [charIndices] at hlast
    · next i c hlast =>
      rw [end_charIndices hlast, Nat.zero_add, ← hrest]
      exact sliceTo_byteLen p rest

/-- No panic, and the result is the longest clean prefix that fits. -/
theorem sanitize_longest (s : List Char) (maxLen : Nat) :
    ∃ out, sanitize s maxLen = some out ∧ (∀ c ∈ out, isControl c = false) ∧
      out <+: (s.filter fun c => !isControl c) ∧ byteLen out ≤ maxLen ∧
      (∀ p, p <+: (s.filter fun c => !isControl c) → byteLen p ≤ maxLen → p <+: out) ∧
      sanitize out maxLen = some out := by
  have hstart := fitting_start maxLen 0 (s.filter fun c => !isControl c)
  have hlen := byteLen_fitting (Nat.zero_le maxLen) (s.filter fun c => !isControl c)
  have hlongest : ∀ p, p <+: (s.filter fun c => !isControl c) → 0 + byteLen p ≤ maxLen →
      p <+: fitting maxLen 0 (s.filter fun c => !isControl c) := fun p => prefix_fitting
  refine ⟨_, sanitize_eq s maxLen, ?_⟩
  generalize fitting maxLen 0 (s.filter fun c => !isControl c) = out at hstart hlen hlongest ⊢
  rw [Nat.zero_add] at hlen
  have hclean : ∀ c ∈ out, isControl c = false := fun c hc => by
    simpa using (List.mem_filter.mp (hstart.subset hc)).2
  refine ⟨hclean, hstart, hlen, fun p hp hfits => hlongest p hp (by omega), ?_⟩
  have hsame : (out.filter fun c => !isControl c) = out :=
    List.filter_eq_self.mpr fun c hc => by simp [hclean c hc]
  rw [sanitize]
  simp only [hsame, if_pos hlen]

end Aetheris.Telemetry
