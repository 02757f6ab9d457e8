import Srui.Basic.CheckedArrays

/-!
The token bucket that admits transactions.

Credit is counted in token-nanoseconds. An operation on `UInt64` that traps where its result does
not fit is none there; an operation that reports the overflow is a checked one that is matched on.
-/

namespace Srui.Client.TransactionRateLimiters

open Basic.Machine Basic.CheckedArrays

def unitsPerToken : Nat := 1000000000

structure TransactionRateLimits where
  sustainedTransactionsPerSecond : Nat
  burstCapacity : Nat
  sustained_pos : 0 < sustainedTransactionsPerSecond
  burst_pos : 0 < burstCapacity
  sustained_le : sustainedTransactionsPerSecond ≤ u64Max / unitsPerToken
  burst_le : burstCapacity ≤ u64Max / unitsPerToken

namespace TransactionRateLimits

/-- `TransactionRateLimits.init?`. -/
def new (sustainedTransactionsPerSecond burstCapacity : Nat) : Option TransactionRateLimits :=
  if h : 0 < sustainedTransactionsPerSecond ∧ 0 < burstCapacity ∧
      sustainedTransactionsPerSecond ≤ u64Max / unitsPerToken ∧
      burstCapacity ≤ u64Max / unitsPerToken then
    some ⟨sustainedTransactionsPerSecond, burstCapacity, h.1, h.2.1, h.2.2.1, h.2.2.2⟩
  else none

def standard : TransactionRateLimits where
  sustainedTransactionsPerSecond := 120
  burstCapacity := 240
  sustained_pos := by decide
  burst_pos := by decide
  sustained_le := by decide
  burst_le := by decide

/-- The initializer gives every value of the type, and refuses all other arguments. -/
theorem new_eq_some {sustained burst : Nat} {limits : TransactionRateLimits} :
    new sustained burst = some limits ↔
      limits.sustainedTransactionsPerSecond = sustained ∧ limits.burstCapacity = burst := by
  rcases limits with ⟨sustained', burst', hsustained, hburst, hsustained', hburst'⟩
  unfold new
  constructor
  · intro h
    split_ifs at h
    cases h
    exact ⟨rfl, rfl⟩
  · rintro ⟨rfl, rfl⟩
    exact dif_pos ⟨hsustained, hburst, hsustained', hburst'⟩

end TransactionRateLimits

inductive TransactionAdmission where
  | admitted
  | wait (nanoseconds : Nat)
deriving DecidableEq

structure TransactionRateLimiter where
  limits : TransactionRateLimits
  capacityUnits : Nat
  availableUnits : Nat
  lastRefillUptimeNanoseconds : Option Nat

namespace TransactionRateLimiter

/-- `TransactionRateLimiter.init`. -/
def new (limits : TransactionRateLimits) : Option TransactionRateLimiter := do
  let capacityUnits ← checkedMul limits.burstCapacity unitsPerToken
  some ⟨limits, capacityUnits, capacityUnits, none⟩

/-- The credit that `refill` leaves. -/
def refilled (l : TransactionRateLimiter) (previous now : Nat) : Nat :=
  let boundedRefill :=
    match checkedMul (now - previous) l.limits.sustainedTransactionsPerSecond with
    | none => l.capacityUnits
    | some refill => min refill l.capacityUnits
  match checkedAdd l.availableUnits boundedRefill with
  | none => l.capacityUnits
  | some refilled => min refilled l.capacityUnits

def refill (l : TransactionRateLimiter) (now : Nat) : TransactionRateLimiter :=
  match l.lastRefillUptimeNanoseconds with
  | none => { l with lastRefillUptimeNanoseconds := some now }
  | some previous =>
    if previous < now then
      { l with
        availableUnits := l.refilled previous now
        lastRefillUptimeNanoseconds := some now }
    else l

def admission (l : TransactionRateLimiter) (now : Nat) :
    Option (TransactionRateLimiter × TransactionAdmission) :=
  let l := l.refill now
  if unitsPerToken ≤ l.availableUnits then do
    let availableUnits ← checkedSub l.availableUnits unitsPerToken
    some ({ l with availableUnits := availableUnits }, .admitted)
  else do
    let rate := l.limits.sustainedTransactionsPerSecond
    let deficit ← checkedSub unitsPerToken l.availableUnits
    let sum ← checkedAdd deficit rate
    let numerator ← checkedSub sum 1
    if rate = 0 then none else some (l, .wait (numerator / rate))

def calls (l : TransactionRateLimiter) :
    List Nat → Option (TransactionRateLimiter × List TransactionAdmission)
  | [] => some (l, [])
  | now :: rest => do
    let (l, admission) ← l.admission now
    let (l, admissions) ← l.calls rest
    some (l, admission :: admissions)

end TransactionRateLimiter

def latest (times : List Nat) : Nat := times.foldl max 0

open TransactionRateLimiter

variable {l l' : TransactionRateLimiter} {now : Nat}

/-- Credit stays within the capacity, and the clock shows the latest call. -/
structure Sound (l : TransactionRateLimiter) (times : List Nat) : Prop where
  capacity : l.capacityUnits = l.limits.burstCapacity * unitsPerToken
  available : l.availableUnits ≤ l.capacityUnits
  clock : l.lastRefillUptimeNanoseconds = if times = [] then none else some (latest times)

theorem latest_append (times : List Nat) (now : Nat) :
    latest (times ++ [now]) = max (latest times) now := by
  rw [latest, List.foldl_append]
  rfl

theorem TransactionRateLimits.capacity_le (limits : TransactionRateLimits) :
    limits.burstCapacity * unitsPerToken ≤ u64Max :=
  (Nat.mul_le_mul_right _ limits.burst_le).trans (Nat.div_mul_le_self _ _)

theorem new_sound (limits : TransactionRateLimits) :
    ∃ l, TransactionRateLimiter.new limits = some l ∧ l.limits = limits ∧ Sound l [] := by
  rw [TransactionRateLimiter.new, checkedMul, if_pos limits.capacity_le]
  exact ⟨_, rfl, rfl, rfl, Nat.le_refl _, rfl⟩

theorem refilled_eq (hcapacity : l.capacityUnits ≤ u64Max) (previous now : Nat) :
    l.refilled previous now = min (l.availableUnits +
      (now - previous) * l.limits.sustainedTransactionsPerSecond) l.capacityUnits := by
  unfold refilled checkedMul checkedAdd
  generalize (now - previous) * l.limits.sustainedTransactionsPerSecond = gained
  have hbounded : (match if gained ≤ u64Max then some gained else none with
      | none => l.capacityUnits
      | some refill => min refill l.capacityUnits) = min gained l.capacityUnits := by
    by_cases hgained : gained ≤ u64Max
    · rw [if_pos hgained]
    · rw [if_neg hgained, Nat.min_eq_right (hcapacity.trans (Nat.le_of_not_le hgained))]
  simp only [hbounded]
  by_cases hsum : l.availableUnits + min gained l.capacityUnits ≤ u64Max
  · rw [if_pos hsum]
    dsimp only
    rcases Nat.le_total gained l.capacityUnits with hle | hle
    · rw [Nat.min_eq_left hle]
    · rw [Nat.min_eq_right hle, Nat.min_eq_right (Nat.le_add_left _ _),
        Nat.min_eq_right (hle.trans (Nat.le_add_left _ _))]
  · have hle : l.capacityUnits ≤ l.availableUnits + gained :=
      hcapacity.trans ((Nat.le_of_not_le hsum).trans
        (Nat.add_le_add_left (Nat.min_le_left _ _) _))
    rw [if_neg hsum, Nat.min_eq_right hle]

def credit (l : TransactionRateLimiter) (now : Nat) : Nat :=
  (l.refill now).availableUnits

variable {times : List Nat}

theorem refill_limits (l : TransactionRateLimiter) (now : Nat) :
    (l.refill now).limits = l.limits ∧ (l.refill now).capacityUnits = l.capacityUnits := by
  unfold refill
  split
  · exact ⟨rfl, rfl⟩
  · split_ifs
    · exact ⟨rfl, rfl⟩
    · exact ⟨rfl, rfl⟩

theorem Sound.refill (h : Sound l times) (now : Nat) : Sound (l.refill now) (times ++ [now]) ∧
    (times ≠ [] → credit l now = min (l.availableUnits +
      (now - latest times) * l.limits.sustainedTransactionsPerSecond) l.capacityUnits) := by
  have hcapacity : l.capacityUnits ≤ u64Max := h.capacity ▸ l.limits.capacity_le
  have hclock := h.clock
  have hne : times ++ [now] ≠ [] := List.append_ne_nil_of_right_ne_nil _ (List.cons_ne_nil _ _)
  unfold credit
  by_cases htimes : times = []
  · rw [if_pos htimes] at hclock
    unfold TransactionRateLimiter.refill
    rw [hclock]
    refine ⟨⟨h.capacity, h.available, ?_⟩, fun hne => absurd htimes hne⟩
    simp [latest, htimes]
  · rw [if_neg htimes] at hclock
    unfold TransactionRateLimiter.refill
    rw [hclock]
    dsimp only
    by_cases hlater : latest times < now
    · rw [if_pos hlater, refilled_eq hcapacity]
      refine ⟨⟨h.capacity, Nat.min_le_right _ _, ?_⟩, fun _ => rfl⟩
      rw [if_neg hne, latest_append, Nat.max_eq_right hlater.le]
    · rw [if_neg hlater, Nat.sub_eq_zero_of_le (Nat.le_of_not_lt hlater), Nat.zero_mul]
      refine ⟨⟨h.capacity, h.available, ?_⟩, fun _ => (Nat.min_eq_left h.available).symm⟩
      rw [if_neg hne, latest_append, Nat.max_eq_left (Nat.le_of_not_lt hlater)]
      exact hclock

theorem admission_cases (l : TransactionRateLimiter) (now : Nat) :
    (unitsPerToken ≤ credit l now ∧ l.admission now =
        some ({ l.refill now with availableUnits := credit l now - unitsPerToken }, .admitted)) ∨
      (credit l now < unitsPerToken ∧ l.admission now = some (l.refill now,
        .wait ((unitsPerToken - credit l now + l.limits.sustainedTransactionsPerSecond - 1) /
          l.limits.sustainedTransactionsPerSecond))) := by
  have hlimits := (refill_limits l now).1
  have hpos := l.limits.sustained_pos
  have hrate := l.limits.sustained_le
  unfold TransactionRateLimiter.admission
  change unitsPerToken ≤ (l.refill now).availableUnits ∧ _ ∨
    (l.refill now).availableUnits < unitsPerToken ∧ _
  by_cases htoken : unitsPerToken ≤ (l.refill now).availableUnits
  · refine .inl ⟨htoken, ?_⟩
    simp only [if_pos htoken, checkedSub, Option.bind_eq_bind, Option.bind_some]
    rfl
  · have hfits : unitsPerToken - (l.refill now).availableUnits +
        l.limits.sustainedTransactionsPerSecond ≤ u64Max := by
      have hbound : unitsPerToken + u64Max / unitsPerToken ≤ u64Max := by decide
      omega
    refine .inr ⟨Nat.lt_of_not_le htoken, ?_⟩
    simp only [if_neg htoken, checkedSub, checkedAdd, hlimits,
      if_pos (Nat.le_of_not_le htoken), if_pos hfits, if_neg hpos.ne', Option.bind_eq_bind,
      Option.bind_some, if_pos (show 1 ≤ unitsPerToken - (l.refill now).availableUnits +
        l.limits.sustainedTransactionsPerSecond by omega)]
    rfl

theorem Sound.next (h : Sound l times) (now : Nat) : ∃ l' admission,
    l.admission now = some (l', admission) ∧ l'.limits = l.limits ∧ Sound l' (times ++ [now]) ∧
      l'.availableUnits + [admission].count .admitted * unitsPerToken = credit l now := by
  have hsound := (h.refill now).1
  have hlimits := (refill_limits l now).1
  rcases admission_cases l now with ⟨htoken, hcall⟩ | ⟨-, hcall⟩
  · refine ⟨_, _, hcall, hlimits, ⟨hsound.capacity, ?_, hsound.clock⟩, ?_⟩
    · exact (Nat.sub_le _ _).trans hsound.available
    · rw [List.count_singleton_self, Nat.one_mul]
      exact Nat.sub_add_cancel htoken
  · refine ⟨_, _, hcall, hlimits, hsound, ?_⟩
    simp [credit]

theorem calls_cons (l : TransactionRateLimiter) (now : Nat) (rest : List Nat) :
    l.calls (now :: rest) = (l.admission now).bind fun (l, admission) =>
      (l.calls rest).bind fun (l, admissions) => some (l, admission :: admissions) := rfl

theorem Sound.credit_le (h : Sound l times) (now : Nat) : credit l now ≤ l.availableUnits +
    (now - latest times) * l.limits.sustainedTransactionsPerSecond := by
  by_cases htimes : times = []
  · have hclock := h.clock
    rw [if_pos htimes] at hclock
    unfold credit TransactionRateLimiter.refill
    rw [hclock]
    exact Nat.le_add_right _ _
  · rw [(h.refill now).2 htimes]
    exact Nat.min_le_left _ _

theorem Sound.run (h : Sound l times) (rest : List Nat) :
    ∃ l' admissions, l.calls rest = some (l', admissions) ∧ l'.limits = l.limits ∧
      Sound l' (times ++ rest) ∧ latest times ≤ latest (times ++ rest) ∧
      l'.availableUnits + admissions.count .admitted * unitsPerToken ≤ l.availableUnits +
        (latest (times ++ rest) - latest times) * l.limits.sustainedTransactionsPerSecond := by
  induction rest generalizing l times with
  | nil => exact ⟨l, [], rfl, rfl, by rwa [List.append_nil], by simp, by simp⟩
  | cons now rest ih =>
    obtain ⟨l₁, admission, hcall, hlimits, hsound, hcount⟩ := h.next now
    obtain ⟨l₂, admissions, hcalls, hlimits₂, hsound₂, hlatest, hcount₂⟩ := ih hsound
    have hcredit := h.credit_le now
    rw [List.append_assoc, List.singleton_append] at hsound₂ hlatest hcount₂
    rw [latest_append] at hlatest hcount₂
    refine ⟨l₂, admission :: admissions, ?_, hlimits₂.trans hlimits, hsound₂,
      (Nat.le_max_left _ _).trans hlatest, ?_⟩
    · simp only [calls_cons, hcall, Option.bind_some, hcalls]
    · have hsplit : latest (times ++ now :: rest) - latest times =
          (now - latest times) + (latest (times ++ now :: rest) - max (latest times) now) := by
        omega
      rw [← List.singleton_append, List.count_append, Nat.add_mul, hsplit, Nat.add_mul]
      rw [hlimits] at hcount₂
      omega

theorem latest_le {t : Nat} (h : ∀ s ∈ times, s ≤ t) : latest (times ++ [t]) = t := by
  rw [latest_append, Nat.max_eq_right]
  induction times using List.reverseRecOn with
  | nil => exact Nat.zero_le _
  | append_singleton times s ih =>
    rw [latest_append]
    exact Nat.max_le.mpr ⟨ih fun s' hs => h s' (List.mem_append_left _ hs),
      h s (List.mem_append_right _ List.mem_cons_self)⟩

/-- The wait `n` is the least number of nanoseconds that pays for `deficit`. -/
theorem wait_least {deficit rate n : Nat} (hrate : 0 < rate)
    (hn : n = (deficit + rate - 1) / rate) :
    deficit ≤ n * rate ∧ ∀ m < n, m * rate < deficit := by
  constructor
  · have hmod := Nat.mod_lt (deficit + rate - 1) hrate
    have hdiv := Nat.div_add_mod' (deficit + rate - 1) rate
    rw [← hn] at hdiv
    omega
  · intro m hm
    have hle := (Nat.le_div_iff_mul_le hrate).mp (Nat.succ_le_of_lt (hn ▸ hm))
    rw [Nat.succ_mul] at hle
    omega

theorem Sound.wait (h : Sound l times) {t n : Nat} (ht : ∀ s ∈ times, s ≤ t)
    (hcall : l.admission t = some (l', .wait n)) :
    (∃ l₂, l'.admission (t + n) = some (l₂, .admitted)) ∧
      ∀ u < t + n, ∃ l₂ m, l'.admission u = some (l₂, .wait m) := by
  rcases admission_cases l t with ⟨-, hadmits⟩ | ⟨hshort, hwaits⟩
  · rw [hadmits] at hcall
    cases hcall
  rw [hwaits] at hcall
  obtain ⟨rfl, hn⟩ := Prod.mk.inj (Option.some.inj hcall)
  injection hn with hn
  have hsound := (h.refill t).1
  obtain ⟨henough, hleast⟩ := wait_least l.limits.sustained_pos hn.symm
  have hcredit := fun u => (hsound.refill u).2 (List.append_ne_nil_of_right_ne_nil _
    (List.cons_ne_nil _ _))
  simp only [latest_le ht, (refill_limits l t).1] at hcredit
  change ∀ u, credit (l.refill t) u = min (credit l t + _) _ at hcredit
  constructor
  · rcases admission_cases (l.refill t) (t + n) with ⟨-, hadmits⟩ | ⟨hlack, -⟩
    · exact ⟨_, hadmits⟩
    · have hburst : unitsPerToken ≤ (l.refill t).capacityUnits :=
        hsound.capacity ▸ Nat.le_mul_of_pos_left _ (l.refill t).limits.burst_pos
      rw [hcredit, Nat.add_sub_cancel_left] at hlack
      rcases min_lt_iff.mp hlack with hlack | hlack <;> omega
  · intro u hu
    rcases admission_cases (l.refill t) u with ⟨hpaid, -⟩ | ⟨-, hwaits⟩
    · rw [hcredit] at hpaid
      have hpaid := hpaid.trans (Nat.min_le_left _ _)
      have hpos : 0 < n := by
        by_contra hzero
        rw [Nat.eq_zero_of_not_pos hzero, Nat.zero_mul] at henough
        omega
      have hsmall := hleast (u - t) (by omega)
      omega
    · exact ⟨_, _, hwaits⟩

theorem Sound.window (h : Sound l times) (first : Nat) (between : List Nat) :
    ∃ l₁ admissions, l.calls (first :: between) = some (l₁, admissions) ∧
      admissions.count .admitted ≤ l.limits.burstCapacity +
        l.limits.sustainedTransactionsPerSecond * (latest (times ++ first :: between) -
          latest (times ++ [first])) / unitsPerToken := by
  obtain ⟨l₁, admission, hcall, hlimits, hsound, hcount⟩ := h.next first
  obtain ⟨l₂, admissions, hcalls, -, -, -, hcount₂⟩ := hsound.run between
  have hcapacity : credit l first ≤ l.limits.burstCapacity * unitsPerToken :=
    (h.refill first).1.available.trans_eq ((refill_limits l first).2.trans h.capacity)
  rw [List.append_assoc, List.singleton_append, hlimits] at hcount₂
  refine ⟨l₂, admission :: admissions, ?_, ?_⟩
  · simp only [calls_cons, hcall, Option.bind_some, hcalls]
  · rw [Nat.add_comm, ← Nat.add_mul_div_right _ _ (by decide : 0 < unitsPerToken),
      Nat.le_div_iff_mul_le (by decide), ← List.singleton_append, List.count_append, Nat.add_mul,
      Nat.mul_comm l.limits.sustainedTransactionsPerSecond]
    omega

/-- The token bucket does not trap, its credit is at most its capacity, between any two calls it
admits at most a burst and what the elapsed time pays for, and the wait it returns is the least. -/
theorem token_bucket (limits : TransactionRateLimits) :
    ∃ l, TransactionRateLimiter.new limits = some l ∧ ∀ before, ∃ l₀ admissions,
      l.calls before = some (l₀, admissions) ∧ l₀.availableUnits ≤ l₀.capacityUnits ∧
      l₀.capacityUnits = limits.burstCapacity * unitsPerToken ∧
      (∀ first between, ∃ l₁ admissions, l₀.calls (first :: between) = some (l₁, admissions) ∧
        admissions.count .admitted ≤ limits.burstCapacity +
          limits.sustainedTransactionsPerSecond * (latest (before ++ first :: between) -
            latest (before ++ [first])) / unitsPerToken + 1) ∧
      ∀ t l₁ n, (∀ s ∈ before, s ≤ t) → l₀.admission t = some (l₁, .wait n) →
        (∃ l₂, l₁.admission (t + n) = some (l₂, .admitted)) ∧
        ∀ u < t + n, ∃ l₂ m, l₁.admission u = some (l₂, .wait m) := by
  obtain ⟨l, hnew, hlimits, hsound⟩ := new_sound limits
  subst hlimits
  refine ⟨l, hnew, fun before => ?_⟩
  obtain ⟨l₀, admissions, hcalls, hlimits, hsound₀, -⟩ := hsound.run before
  rw [List.nil_append] at hsound₀
  refine ⟨l₀, admissions, hcalls, hsound₀.available, hlimits ▸ hsound₀.capacity,
    fun first between => ?_, fun t l₁ n ht hcall => hsound₀.wait ht hcall⟩
  obtain ⟨l₁, admissions, hcalls, hcount⟩ := hsound₀.window first between
  exact ⟨l₁, admissions, hcalls, hlimits ▸ Nat.le_succ_of_le hcount⟩

/-- Five hundred calls a second after the first one. -/
theorem standard_bucket : ∃ l l₁ admissions, TransactionRateLimiter.new .standard = some l ∧
    l.calls (0 :: List.replicate 500 1000000000) = some (l₁, admissions) ∧
    admissions.count .admitted ≤ 361 := by
  obtain ⟨l, hnew, hbucket⟩ := token_bucket .standard
  obtain ⟨l₀, admissions₀, hnone, -, -, hwindow, -⟩ := hbucket []
  obtain ⟨rfl, rfl⟩ := Prod.mk.inj (Option.some.inj hnone)
  obtain ⟨l₁, admissions, hcalls, hcount⟩ := hwindow 0 (List.replicate 500 1000000000)
  refine ⟨l, l₁, admissions, hnew, hcalls, hcount.trans ?_⟩
  decide +kernel

end Srui.Client.TransactionRateLimiters
