import OpenMemory.Admin.Model
import OpenMemory.Lib.Window

/-!
# The two sliding windows (`adapters/mcp/adapter.py`, `cloud/admin.py`)

`TenantWindowRateLimiter.allow` keeps a queue of times for each tenant and tool and drops its head
while it is out of the window; `LocalMailboxAuth.request` keeps a list for each digest of an address
and filters it. Along a run in the order of the clock both are the same limiter (`Limiter.Slides`),
so both limits are exact (`window_limits_exact`).

The clock of the tenant limiter reads numbers of any type whose subtraction is monotone: floats
round, and rounding is monotone. That of the mailbox reads datetimes. Close to the first and to the
last of them a request raises `OverflowError`: before the limit is read if the window begins before
the first datetime, after the attempt is recorded if the link expires after the last.
-/

namespace OpenMemory.Mcp

open Lib OpenMemory.Admin

/-! ## Per tenant and tool -/

/-- Readings of a clock. -/
class ClockReading (T : Type) extends LinearOrder T, Sub T, Zero T where
  sub_le_sub_right {a b : T} (h : a ≤ b) (w : T) : a - w ≤ b - w

instance : ClockReading Int where
  sub_le_sub_right h w := Int.sub_le_sub_right h w

/-- The arguments of `TenantWindowRateLimiter`, which raises unless they are positive. -/
structure TenantWindowRateLimiter (T : Type) [ClockReading T] where
  maximum : Nat
  windowSeconds : T
  maximum_pos : 1 ≤ maximum
  window_pos : 0 < windowSeconds

/-- `_calls`. -/
abbrev RateCalls (T : Type) : Type := Dict (String × String) (List T)

variable {T : Type} [ClockReading T]

/-- `allow`; `now` is the reading of the clock. -/
def TenantWindowRateLimiter.allow (limiter : TenantWindowRateLimiter T) (tool : String)
    (tenantKey : Option String) (now : T) (rateCalls : RateCalls T) : Bool × RateCalls T :=
  match tenantKey with
  | none => (true, rateCalls)
  | some tenantKey =>
    let calls := ((rateCalls.get? (tenantKey, tool)).getD []).dropWhile fun item =>
      decide (item ≤ now - limiter.windowSeconds)
    if limiter.maximum ≤ calls.length then (false, rateCalls.set (tenantKey, tool) calls)
    else (true, rateCalls.set (tenantKey, tool) (calls ++ [now]))

/-- A call of a tool. -/
structure TimedCall (T : Type) where
  tool : String
  tenantKey : Option String
  now : T

/-- Who asks the limiter. -/
def TenantWindowRateLimiter.asked (limiter : TenantWindowRateLimiter T) :
    Limiter (TimedCall T) (RateCalls T) (String × String) T where
  key c := c.tenantKey.map fun tenantKey => (tenantKey, c.tool)
  time := TimedCall.now
  call c rateCalls :=
    let answer := limiter.allow c.tool c.tenantKey c.now rateCalls
    (some answer.1, answer.2)

theorem TenantWindowRateLimiter.slides (limiter : TenantWindowRateLimiter T) :
    limiter.asked.Slides limiter.maximum (· - limiter.windowSeconds)
      fun rateCalls key => (Dict.get? rateCalls key).getD [] where
  unlimited {c} h rateCalls := by
    have hnone : c.tenantKey = none := by simpa [asked] using h
    simp [asked, allow, hnone]
  other {c key key'} h hne rateCalls := by
    obtain ⟨tenantKey, htenant, rfl⟩ := Option.map_eq_some_iff.mp h
    simp only [asked, allow, htenant]
    split <;> simp [Dict.get?_set_of_ne _ _ hne]
  offered {c key rateCalls} h hsorted hle := by
    obtain ⟨tenantKey, htenant, rfl⟩ := Option.map_eq_some_iff.mp h
    have hdrop := Limiter.dropWhile_eq_filter (c.now - limiter.windowSeconds) hsorted
    simp only [asked, allow, htenant, hdrop]
    split
    · rw [Dict.get?_set_self]
      exact .rejected ‹_›
    · rw [Dict.get?_set_self]
      exact .admitted (not_le.mp ‹_›)
  alone {c key s s'} h hlog := by
    obtain ⟨tenantKey, htenant, rfl⟩ := Option.map_eq_some_iff.mp h
    simp only [asked, allow, htenant, hlog]
    split <;> simp [Dict.get?_set_self]

/-! ## Per address -/

/-- `email_digest`. -/
def emailDigest (settings : MailboxSettings) (email : String) : String :=
  sha256Hexdigest (settings.casefold (strip email))

/-- Whether the limit lets a request through, `none` if it is not reached. -/
def admits (settings : MailboxSettings) (now : DateTime) (email : String)
    (auth : LocalMailboxAuth) : Option Bool :=
  (LocalMailboxAuth.recentAttempts settings.magicLinkWindow now
    ((auth.magicLinkAttempts.get? (emailDigest settings email)).getD [])).map fun allowed =>
      decide (allowed.length < settings.magicLinkLimit)

/-- A request for a magic link. -/
structure LinkCall where
  email : String
  raw : String
  now : DateTime

/-- Who asks the mailbox. -/
def mailbox (settings : MailboxSettings) : Limiter LinkCall LocalMailboxAuth String Int where
  key c := some (emailDigest settings c.email)
  time c := c.now.instant
  call c auth :=
    (admits settings c.now c.email auth, (auth.request settings c.now c.email c.raw).2)

theorem instant_plus {d d' : DateTime} {micros : Int} (h : d.plus micros = some d') :
    d'.instant = d.instant + micros := by
  unfold DateTime.plus at h
  split at h
  · cases h
    unfold DateTime.instant
    ring
  · cases h

/-- The attempts that a request finds in its window. -/
theorem recentAttempts_eq {window : Int} {now : DateTime} {previous allowed : List DateTime}
    (h : LocalMailboxAuth.recentAttempts window now previous = some allowed) :
    allowed.map DateTime.instant
      = (previous.map DateTime.instant).filter (now.instant - window < ·) := by
  unfold LocalMailboxAuth.recentAttempts at h
  split at h
  · cases h
    simp_all
  · obtain ⟨since, hsince, rfl⟩ := Option.map_eq_some_iff.mp h
    rw [List.filter_map, instant_plus hsince]
    rfl

/-- Of the previous attempts only the times count. -/
theorem recentAttempts_congr (window : Int) (now : DateTime) {previous previous' : List DateTime}
    (h : previous.map DateTime.instant = previous'.map DateTime.instant) :
    (LocalMailboxAuth.recentAttempts window now previous).isSome
      = (LocalMailboxAuth.recentAttempts window now previous').isSome := by
  have hnil : previous = [] ↔ previous' = [] := by
    rw [← List.map_eq_nil_iff (f := DateTime.instant), h, List.map_eq_nil_iff]
  unfold LocalMailboxAuth.recentAttempts
  by_cases hempty : previous = []
  · simp [hempty, hnil.mp hempty]
  · simp [hempty, mt hnil.mpr hempty]

/-- What a request may do. -/
theorem request_cases (settings : MailboxSettings) (now : DateTime) (email raw : String)
    (auth : LocalMailboxAuth) :
    (LocalMailboxAuth.recentAttempts settings.magicLinkWindow now
          ((auth.magicLinkAttempts.get? (emailDigest settings email)).getD []) = none ∧
        auth.request settings now email raw = (.error .overflowError, auth)) ∨
      ∃ allowed, LocalMailboxAuth.recentAttempts settings.magicLinkWindow now
          ((auth.magicLinkAttempts.get? (emailDigest settings email)).getD []) = some allowed ∧
        ((settings.magicLinkLimit ≤ allowed.length ∧
            (auth.request settings now email raw).1 = .ok false ∧
            (auth.request settings now email raw).2.magicLinkAttempts
              = auth.magicLinkAttempts.set (emailDigest settings email) allowed) ∨
          (allowed.length < settings.magicLinkLimit ∧
            (auth.request settings now email raw).1
              = (if (now.plus (60 * minuteMicros)).isSome ∧ (now.plus (10 * minuteMicros)).isSome
                  then .ok true else .error .overflowError) ∧
            (auth.request settings now email raw).2.magicLinkAttempts
              = auth.magicLinkAttempts.set (emailDigest settings email) (allowed ++ [now]))) := by
  unfold LocalMailboxAuth.request
  simp only [← emailDigest.eq_1]
  cases hrecent : LocalMailboxAuth.recentAttempts settings.magicLinkWindow now
      ((auth.magicLinkAttempts.get? (emailDigest settings email)).getD []) with
  | none => exact .inl ⟨rfl, rfl⟩
  | some allowed =>
    refine .inr ⟨allowed, rfl, ?_⟩
    by_cases hfull : settings.magicLinkLimit ≤ allowed.length
    · exact .inl ⟨hfull, by simp only [hfull, if_true], by simp only [hfull, if_true]⟩
    · refine .inr ⟨not_le.mp hfull, ?_⟩
      simp only [hfull, if_false]
      cases now.plus (60 * minuteMicros) <;> cases now.plus (10 * minuteMicros) <;>
        simp

theorem mailbox_slides (settings : MailboxSettings) :
    (mailbox settings).Slides settings.magicLinkLimit (· - settings.magicLinkWindow)
      fun auth digest => ((auth.magicLinkAttempts.get? digest).getD []).map DateTime.instant where
  unlimited h := nomatch h
  other {c digest digest'} h hne auth := by
    obtain rfl := Option.some.inj h
    simp only [mailbox]
    obtain ⟨-, hsame⟩ | ⟨allowed, -, ⟨-, -, hset⟩ | ⟨-, -, hset⟩⟩ :=
      request_cases settings c.now c.email c.raw auth
    · rw [hsame]
    · rw [hset, Dict.get?_set_of_ne _ _ hne]
    · rw [hset, Dict.get?_set_of_ne _ _ hne]
  offered {c digest auth} h hsorted hle := by
    obtain rfl := Option.some.inj h
    simp only [mailbox, admits]
    obtain ⟨hnone, hsame⟩ | ⟨allowed, hsome, ⟨hfull, -, hset⟩ | ⟨hroom, -, hset⟩⟩ :=
      request_cases settings c.now c.email c.raw auth
    · rw [hnone, hsame]
      exact .failed
    · have hkept := recentAttempts_eq hsome
      rw [hsome, hset, Dict.get?_set_self, Option.getD_some, hkept, Option.map_some,
        decide_eq_false (not_lt.mpr hfull)]
      refine .rejected ?_
      rw [← hkept, List.length_map]
      exact hfull
    · have hkept := recentAttempts_eq hsome
      rw [hsome, hset, Dict.get?_set_self, Option.getD_some, List.map_append, hkept,
        Option.map_some, decide_eq_true hroom]
      refine .admitted ?_
      rw [← hkept, List.length_map]
      exact hroom
  alone {c digest auth auth'} h hlog := by
    obtain rfl := Option.some.inj h
    have hsome := recentAttempts_congr settings.magicLinkWindow c.now hlog
    simp only [mailbox, admits]
    obtain ⟨hnone, hsame⟩ | ⟨allowed, hallowed, hcases⟩ :=
      request_cases settings c.now c.email c.raw auth <;>
    obtain ⟨hnone', hsame'⟩ | ⟨allowed', hallowed', hcases'⟩ :=
      request_cases settings c.now c.email c.raw auth'
    · rw [hnone, hnone', hsame, hsame']
      exact ⟨rfl, hlog⟩
    · rw [hnone, hallowed'] at hsome
      cases hsome
    · rw [hallowed, hnone'] at hsome
      cases hsome
    · -- Both windows hold as many attempts, so both requests take the same branch.
      have hkept : allowed.map DateTime.instant = allowed'.map DateTime.instant := by
        rw [recentAttempts_eq hallowed, recentAttempts_eq hallowed', hlog]
      have hlength : allowed.length = allowed'.length := by
        simpa using congrArg List.length hkept
      rw [hallowed, hallowed', Option.map_some, Option.map_some, hlength]
      refine ⟨rfl, ?_⟩
      obtain ⟨hfull, -, hset⟩ | ⟨hroom, -, hset⟩ := hcases <;>
      obtain ⟨hfull', -, hset'⟩ | ⟨hroom', -, hset'⟩ := hcases'
      · rw [hset, hset', Dict.get?_set_self, Dict.get?_set_self]
        exact hkept
      · omega
      · omega
      · rw [hset, hset', Dict.get?_set_self, Dict.get?_set_self]
        simp [hkept]

/-- Where the limit decides about a request, the request answers as it does: it is refused if it is
not let through, and one that is let through gets its link unless the link would expire after the
last datetime. -/
theorem request_admits (settings : MailboxSettings) (now : DateTime) (email raw : String)
    (auth : LocalMailboxAuth) :
    (admits settings now email auth = some false
        ↔ (auth.request settings now email raw).1 = .ok false) ∧
      ((auth.request settings now email raw).1 = .ok true →
        admits settings now email auth = some true) ∧
      (admits settings now email auth = some true → (now.plus (60 * minuteMicros)).isSome →
        (auth.request settings now email raw).1 = .ok true) := by
  unfold admits
  obtain ⟨hnone, hsame⟩ | ⟨allowed, hsome, ⟨hfull, hanswer, -⟩ | ⟨hroom, hanswer, -⟩⟩ :=
    request_cases settings now email raw auth
  · rw [hnone, hsame]
    simp
  · rw [hsome, hanswer]
    simp [hfull]
  · rw [hsome, hanswer]
    have hlonger (h : (now.plus (60 * minuteMicros)).isSome = true) :
        (now.plus (10 * minuteMicros)).isSome = true := by
      unfold DateTime.plus minuteMicros at h ⊢
      split at h
      · rename_i hin
        have hlow : 0 ≤ now.wall + 10 * 60000000 ∧ now.wall + 10 * 60000000 < maxWall := by
          have := now.wall_nonneg
          omega
        rw [dif_pos hlow]
        rfl
      · cases h
    refine ⟨?_, fun _ => by simp [hroom], fun _ h => by simp [h, hlonger h]⟩
    simp only [Option.map_some, Option.some.injEq, decide_eq_false_iff_not, not_lt]
    constructor
    · intro hfull
      omega
    · intro hfalse
      split at hfalse <;> cases hfalse

/-- Both limits are exact, from their start and along every run in the order of the clock: no
window of the configured length, open to the left or open to the right, has more than the maximum
of calls of a key that were let through, a call is rejected only if the window that ends at it has
as many, and the calls of a key are answered as if there were no others. -/
theorem window_limits_exact :
    (∀ (limiter : TenantWindowRateLimiter T) (calls : List (TimedCall T)),
      limiter.asked.Ordered calls →
        limiter.asked.Exact limiter.maximum (· - limiter.windowSeconds) ∅ calls) ∧
    (∀ (settings : MailboxSettings) (auth : LocalMailboxAuth) (calls : List LinkCall),
      auth.magicLinkAttempts = ∅ → (mailbox settings).Ordered calls →
        (mailbox settings).Exact settings.magicLinkLimit (· - settings.magicLinkWindow) auth
          calls) ∧
    ∀ (settings : MailboxSettings) (now : DateTime) (email raw : String)
      (auth : LocalMailboxAuth),
      (admits settings now email auth = some false
          ↔ (auth.request settings now email raw).1 = .ok false) ∧
        ((auth.request settings now email raw).1 = .ok true →
          admits settings now email auth = some true) ∧
        (admits settings now email auth = some true → (now.plus (60 * minuteMicros)).isSome →
          (auth.request settings now email raw).1 = .ok true) := by
  refine ⟨fun limiter calls hordered => ?_, fun settings auth calls hfresh hordered => ?_,
    request_admits⟩
  · exact limiter.slides.exact (fun _ _ h => ClockReading.sub_le_sub_right h _)
      (fun key => by simp) hordered
  · exact (mailbox_slides settings).exact (fun _ _ h => Int.sub_le_sub_right h _)
      (fun digest => by simp [hfresh]) hordered

theorem oneCall_pos : 1 ≤ 1 := by decide

theorem minute_pos : (0 : Int) < 60 := by decide

/-- One call a minute. -/
def oneAMinute : TenantWindowRateLimiter Int where
  maximum := 1
  windowSeconds := 60
  maximum_pos := oneCall_pos
  window_pos := minute_pos

/-- A tenant searches three times, the last time as the minute is over; another searches between. -/
def fourSearches : List (TimedCall Int) :=
  [⟨"memory.search", some "a", 0⟩, ⟨"memory.search", some "a", 10⟩, ⟨"memory.search", some "b", 10⟩,
    ⟨"memory.search", some "a", 60⟩]

theorem defaultLimit_pos : 1 ≤ 5 := by decide

theorem defaultWindow_pos : 0 < 15 * minuteMicros := by decide

/-- A mailbox with the default limits. -/
def defaultSettings : MailboxSettings where
  casefold := id
  limit_pos := defaultLimit_pos
  window_pos := defaultWindow_pos

theorem window_limits_exact_desk :
    (oneAMinute.asked.transcript ∅ fourSearches).map Prod.snd
        = [some true, some false, some true, some true] ∧
      oneAMinute.asked.Exact 1 (· - 60) ∅ fourSearches ∧
      (mailbox defaultSettings).Exact 5 (· - 15 * minuteMicros) {}
        [⟨"ada@example.test", "link-1", atHour 0⟩, ⟨"ada@example.test", "link-2", atHour 1⟩] :=
  ⟨by decide,
    window_limits_exact.1 oneAMinute fourSearches (by decide),
    (window_limits_exact (T := Int)).2.1 defaultSettings {} _ rfl (by decide)⟩

end OpenMemory.Mcp
