import Otap.D3.Encodings
import Otap.Optics.Polarization
import Mathlib.Analysis.SpecialFunctions.Trigonometric.Inverse

/-!
# Honest transmissions

The receiver of an honest transmission compares the trajectory that it derives with itself. `Platform.exact` reads the
floating-point numbers of `otap-core` and `otap-crypto` as real ones, and takes any keyed function for HMAC-SHA256.

A sample comes from three integers, two bytes each. The vector of these is normalized to the unit sphere unless it is
zero: then it stays zero, which is a quarter turn away from itself (`selfDistance_stokesFromBytes_blank`). So a
trajectory with such a sample is refused by its own check, unless the tolerance is a quarter turn
(`honest_accepted_iff`).
-/

namespace Otap.Obg

open Real Otap.Lib

/-! ## Exact real numbers -/

/-- `as i32`: towards zero, and saturating. -/
noncomputable def truncated (x : ℝ) : Int32 :=
  Int32.ofInt (Optics.asI32 (if 0 ≤ x then ⌊x⌋ else ⌈x⌉))

/-- A full turn, as the source writes it. -/
noncomputable def fullTurn : ℝ := ((2 : ℚ) : ℝ) * π

noncomputable def quarterTurn : ℝ := π / ((2 : ℚ) : ℝ)

lemma fullTurn_eq : fullTurn = 2 * π := by
  rw [fullTurn, Rat.cast_ofNat]

lemma quarterTurn_eq : quarterTurn = π / 2 := by
  rw [quarterTurn, Rat.cast_ofNat]

section Turns

variable {y x y' x' : ℝ}

/-- The difference of two angles is less than a full turn. -/
lemma atan2_sub_lt :
    Optics.atan2 y x - Optics.atan2 y' x' < fullTurn ∧ -fullTurn < Optics.atan2 y x - Optics.atan2 y' x' := by
  obtain ⟨lower, upper⟩ := Complex.arg_mem_Ioc ⟨x, y⟩
  obtain ⟨lower', upper'⟩ := Complex.arg_mem_Ioc ⟨x', y'⟩
  rw [Optics.atan2, Optics.atan2, fullTurn_eq]
  constructor
  · linarith
  · linarith

lemma exact_gt_turn (_ : decide (Optics.atan2 y x - Optics.atan2 y' x' > π) = true) :
    decide (Optics.atan2 y x - Optics.atan2 y' x' - fullTurn > π) = false := by
  have lt := (@atan2_sub_lt y x y' x').1
  exact decide_eq_false (not_lt.mpr (by linarith [pi_pos]))

lemma exact_gt_turn_le (above : decide (Optics.atan2 y x - Optics.atan2 y' x' > π) = true) :
    decide (Optics.atan2 y x - Optics.atan2 y' x' - fullTurn ≤ -π) = false := by
  have above : π < Optics.atan2 y x - Optics.atan2 y' x' := of_decide_eq_true above
  exact decide_eq_false (not_le.mpr (by linarith [fullTurn_eq]))

lemma exact_le_turn (_ : decide (Optics.atan2 y x - Optics.atan2 y' x' ≤ -π) = true) :
    decide (Optics.atan2 y x - Optics.atan2 y' x' + fullTurn ≤ -π) = false := by
  have lt := (@atan2_sub_lt y x y' x').2
  exact decide_eq_false (not_le.mpr (by linarith [pi_pos]))

end Turns

/-- The exact real numbers, with any keyed function for HMAC-SHA256. -/
noncomputable def Platform.exact (hmac : SharedSecret → Hash 32) : Platform where
  F32 := ℝ
  F64 := ℝ
  ofInt n := n
  literal q := q
  pi := π
  add := (· + ·)
  sub := (· - ·)
  mul := (· * ·)
  div := (· / ·)
  neg := (- ·)
  sqrt := Real.sqrt
  acos := Real.arccos
  round x := Optics.roundAway x
  atan2 := Optics.atan2
  max := Max.max
  clamp x lo hi := Max.max lo (min x hi)
  gt x y := decide (x > y)
  le x y := decide (x ≤ y)
  toI32 := truncated
  widen := id
  zero64 := 0
  lt64 x y := decide (x < y)
  hmac := hmac
  lt64_irrefl x := decide_eq_false (lt_irrefl x)
  gt_turn _ _ _ _ above := exact_gt_turn above
  gt_turn_le _ _ _ _ above := exact_gt_turn_le above
  le_turn _ _ _ _ below := exact_le_turn below

variable {hmac : SharedSecret → Hash 32}

/-! ## The distance of a sample from itself -/

noncomputable def selfDistance (v : StokesVector (.exact hmac)) : ℝ :=
  v.angularDistance v

/-- The length that the components are divided by. -/
noncomputable def magnitude (x y z : ℝ) : ℝ :=
  max (√(x * x + y * y + z * z)) ((1e-9 : ℚ) : ℝ)

lemma add_mul_self_div (x y z m : ℝ) :
    x / m * (x / m) + y / m * (y / m) + z / m * (z / m) = (x * x + y * y + z * z) / (m * m) := by
  rw [div_mul_div_comm, div_mul_div_comm, div_mul_div_comm, ← add_div, ← add_div]

/-- The distance comes from the squared length of the vector. -/
lemma selfDistance_eq (x y z : ℝ) :
    selfDistance (StokesVector.new x y z : StokesVector (.exact hmac)) =
      arccos (max (-1) (min ((x * x + y * y + z * z) / (magnitude x y z * magnitude x y z)) 1)) := by
  change arccos (max ((-1 : ℚ) : ℝ) (min (x / magnitude x y z * (x / magnitude x y z) +
    y / magnitude x y z * (y / magnitude x y z) + z / magnitude x y z * (z / magnitude x y z)) ((1 : ℚ) : ℝ))) = _
  rw [add_mul_self_div, Rat.cast_neg, Rat.cast_one]

/-- The zero vector is a quarter turn away from itself. -/
lemma selfDistance_zero :
    selfDistance (StokesVector.new (0 : ℝ) (0 : ℝ) (0 : ℝ) : StokesVector (.exact hmac)) = quarterTurn := by
  rw [selfDistance_eq, mul_zero, add_zero, add_zero, zero_div, min_eq_left zero_le_one, max_eq_right (by norm_num),
    arccos_zero, quarterTurn_eq]

/-- A vector that is not too short for the division is at no distance from itself. -/
lemma selfDistance_new {x y z : ℝ} (long : ((1e-9 : ℚ) : ℝ) ≤ √(x * x + y * y + z * z)) :
    selfDistance (StokesVector.new x y z : StokesVector (.exact hmac)) = 0 := by
  have pos : 0 < √(x * x + y * y + z * z) := lt_of_lt_of_le (by norm_num) long
  have unit : (x * x + y * y + z * z) / (magnitude x y z * magnitude x y z) = 1 := by
    rw [magnitude, max_eq_left long, mul_self_sqrt (sqrt_pos.mp pos).le]
    exact div_self (sqrt_pos.mp pos).ne'
  rw [selfDistance_eq, unit, min_self, max_eq_right (by norm_num), arccos_one]

/-! ## Samples -/

/-- The number in two bytes. -/
def signed (hi lo : UInt8) : ℤ :=
  (hi.toBitVec ++ lo.toBitVec).toInt

lemma signed_eq_zero {hi lo : UInt8} : signed hi lo = 0 ↔ hi = 0 ∧ lo = 0 := by
  have zero : (0#16).toInt = 0 := rfl
  rw [signed, ← zero, BitVec.toInt_inj]
  constructor
  · intro e
    have nat := congrArg BitVec.toNat e
    rw [BitVec.toNat_append, BitVec.toNat_zero, Nat.or_eq_zero_iff, Nat.shiftLeft_eq_zero_iff] at nat
    exact ⟨UInt8.toNat_inj.mp nat.1, UInt8.toNat_inj.mp nat.2⟩
  · rintro ⟨rfl, rfl⟩
    rfl

/-- Fractions that are not all zero are at least one part long. -/
lemma le_sqrt_of_ne_zero {a b c : ℤ} (nonzero : ¬ (a = 0 ∧ b = 0 ∧ c = 0)) {d : ℝ} (d_pos : 0 < d) :
    1 / d ≤ √(a / d * (a / d) + b / d * (b / d) + c / d * (c / d)) := by
  have pos : 0 < a * a + b * b + c * c := by
    by_contra le
    have a_nonneg := mul_self_nonneg a
    have b_nonneg := mul_self_nonneg b
    have c_nonneg := mul_self_nonneg c
    refine nonzero ⟨mul_self_eq_zero.mp ?_, mul_self_eq_zero.mp ?_, mul_self_eq_zero.mp ?_⟩
    · omega
    · omega
    · omega
  have norm : (1 : ℝ) ≤ a * a + b * b + c * c := by exact_mod_cast Int.add_one_le_iff.mpr pos
  apply le_sqrt_of_sq_le
  rw [add_mul_self_div, div_pow, one_pow, sq]
  gcongr

/-- The six bytes of a sample are all zero. -/
def Blank (bytes : Bytes) : Prop :=
  ∀ k < 6, bytes.getD k 0 = 0

lemma blank_iff {bytes : Bytes} :
    Blank bytes ↔ signed (bytes.getD 0 0) (bytes.getD 1 0) = 0 ∧ signed (bytes.getD 2 0) (bytes.getD 3 0) = 0 ∧
      signed (bytes.getD 4 0) (bytes.getD 5 0) = 0 := by
  rw [signed_eq_zero, signed_eq_zero, signed_eq_zero]
  constructor
  · intro blank
    exact ⟨⟨blank 0 (by decide), blank 1 (by decide)⟩, ⟨blank 2 (by decide), blank 3 (by decide)⟩, blank 4 (by decide),
      blank 5 (by decide)⟩
  · rintro ⟨⟨zero, one⟩, ⟨two, three⟩, four, five⟩ k lt
    interval_cases k
    · exact zero
    · exact one
    · exact two
    · exact three
    · exact four
    · exact five

lemma selfDistance_stokesFromBytes_blank {bytes : Bytes} (blank : Blank bytes) :
    selfDistance (stokesFromBytes (.exact hmac) bytes) = quarterTurn := by
  obtain ⟨first, second, third⟩ := blank_iff.mp blank
  have zero {hi lo : UInt8} (e : signed hi lo = 0) : toSigned (.exact hmac) hi lo = (0 : ℝ) := by
    change ((signed hi lo : ℤ) : ℝ) / ((32768 : ℚ) : ℝ) = 0
    rw [e, Int.cast_zero, zero_div]
  rw [stokesFromBytes, zero first, zero second, zero third]
  exact selfDistance_zero

lemma selfDistance_stokesFromBytes {bytes : Bytes} (full : ¬ Blank bytes) :
    selfDistance (stokesFromBytes (.exact hmac) bytes) = 0 := by
  have pos : (0 : ℝ) < ((32768 : ℚ) : ℝ) := by norm_num
  have part : ((1e-9 : ℚ) : ℝ) ≤ 1 / ((32768 : ℚ) : ℝ) := by norm_num
  exact selfDistance_new (part.trans (le_sqrt_of_ne_zero (mt blank_iff.mpr full) pos))

/-! ## Verification -/

/-- The loop of the check throws exactly if one of the samples is too far away. -/
lemma forM_throw {α ε : Type} {far : α → Bool} {err : ε} {l : List α} :
    (l.forM fun i => if far i then throw err else (pure () : Except ε Unit)) =
      if l.any far then .error err else .ok () := by
  induction l with
  | nil => rfl
  | cons i l ih =>
    change ((if far i then throw err else (pure () : Except ε Unit)) >>= fun _ => l.forM _) = _
    rw [ih, List.any_cons]
    cases far i with
    | true => rfl
    | false => rfl

/-- The bytes of a sample. -/
def sampleBytes (hmac : SharedSecret → Hash 32) (secret : SharedSecret) (ctx : TrajectoryContext)
    (i : Fin trajectorySamples) : Bytes :=
  ((hmac secret).sum (ascii "OTAP-D3-SAMPLE-v1" ++ (hmac secret).sum ctx.message ++ toBE 2 i.val)).take 6

section Self

variable (hmac) (secret : SharedSecret) (ctx : TrajectoryContext)

lemma get_deriveTrajectory (i : Fin trajectorySamples) :
    (deriveTrajectory (.exact hmac) secret ctx).samples.get i =
      stokesFromBytes (.exact hmac) (sampleBytes hmac secret ctx i) :=
  Vector.getElem_ofFn i.isLt

/-- The check of a trajectory against itself looks for a sample that is further than the tolerance from itself. -/
lemma verifyTrajectory_self (tolerance : ℝ) :
    verifyTrajectory secret ctx (deriveTrajectory (.exact hmac) secret ctx) (.trajectoryMatch tolerance) =
      if (List.finRange trajectorySamples).any fun i =>
          decide (tolerance < selfDistance (stokesFromBytes (.exact hmac) (sampleBytes hmac secret ctx i)))
        then .error .authenticationFailure else .ok () := by
  rw [← forM_throw]
  unfold verifyTrajectory
  simp only [get_deriveTrajectory]
  rfl

lemma verifyTrajectory_self_ok (tolerance : ℝ) :
    verifyTrajectory secret ctx (deriveTrajectory (.exact hmac) secret ctx) (.trajectoryMatch tolerance) = .ok () ↔
      ∀ i, selfDistance (stokesFromBytes (.exact hmac) (sampleBytes hmac secret ctx i)) ≤ tolerance := by
  rw [verifyTrajectory_self]
  split
  case isTrue far =>
    obtain ⟨i, -, far⟩ := List.any_eq_true.mp far
    refine ⟨fun ok => (by cases ok), fun near => ?_⟩
    exact absurd (of_decide_eq_true far) (not_lt.mpr (near i))
  case isFalse near =>
    refine ⟨fun _ i => not_lt.mp fun far => near ?_, fun _ => rfl⟩
    exact List.any_eq_true.mpr ⟨i, List.mem_finRange i, decide_eq_true far⟩

end Self

/-! ## Main result -/

/-- The tolerance, if there is one, is not negative. -/
def AuthMode.Nonneg : AuthMode (.exact hmac) → Prop
  | .trajectoryMatch tolerance => (0 : ℝ) ≤ tolerance
  | .topological => True

/-- The check takes a sample that is a quarter turn away. -/
def AuthMode.TakesQuarterTurn : AuthMode (.exact hmac) → Prop
  | .trajectoryMatch tolerance => quarterTurn ≤ tolerance
  | .topological => True

/-- The receiver accepts an honest transmission exactly if its mode takes samples that are a quarter turn away, or no
    sample of the trajectory is made of zero bytes. -/
theorem honest_accepted_iff (hmac : SharedSecret → Hash 32) (secret : SharedSecret) (ctx : TrajectoryContext)
    (mode : AuthMode (.exact hmac)) (nonneg : mode.Nonneg) :
    verifyTrajectory secret ctx (deriveTrajectory (.exact hmac) secret ctx) mode = .ok () ↔
      mode.TakesQuarterTurn ∨ ∀ i, ¬ Blank (sampleBytes hmac secret ctx i) := by
  cases mode with
  | topological => exact ⟨fun _ => .inl trivial, fun _ => verifyTrajectory_topological secret ctx⟩
  | trajectoryMatch tolerance =>
    refine (verifyTrajectory_self_ok hmac secret ctx tolerance).trans ?_
    constructor
    · intro near
      rw [or_iff_not_imp_right]
      intro some_blank
      obtain ⟨i, blank⟩ := not_forall_not.mp some_blank
      exact (selfDistance_stokesFromBytes_blank blank).symm.trans_le (near i)
    · rintro takes i
      by_cases blank : Blank (sampleBytes hmac secret ctx i)
      case pos =>
        -- a blank sample leaves only the wide tolerance
        have wide : quarterTurn ≤ tolerance := takes.resolve_right fun full => full i blank
        exact (selfDistance_stokesFromBytes_blank blank).trans_le wide
      case neg => exact (selfDistance_stokesFromBytes blank).trans_le nonneg

/-- A keyed function that is zero everywhere. -/
def zeroHmac (_ : SharedSecret) : Hash 32 where
  sum _ := List.replicate 32 0
  length_sum _ := List.length_replicate

lemma blank_zeroHmac (secret : SharedSecret) (ctx : TrajectoryContext) (i : Fin trajectorySamples) :
    Blank (sampleBytes zeroHmac secret ctx i) := by
  change ∀ k < 6, ((List.replicate 32 0).take 6 : Bytes).getD k 0 = 0
  decide

theorem honest_accepted_iff_heartbeat :
    verifyTrajectory (Vector.replicate 32 0x42) (D3.heartbeatContext 1)
      (deriveTrajectory (.exact zeroHmac) (Vector.replicate 32 0x42) (D3.heartbeatContext 1))
      (.trajectoryMatch π) = .ok () := by
  have wide : quarterTurn ≤ π := quarterTurn_eq.trans_le (half_le_self pi_pos.le)
  exact (honest_accepted_iff zeroHmac _ _ (.trajectoryMatch π) pi_pos.le).mpr (.inl wide)

/-- With that function no tolerance below a quarter turn is enough. -/
theorem not_honest_accepted :
    (AuthMode.trajectoryMatch ((0.1 : ℚ) : ℝ) : AuthMode (.exact zeroHmac)).Nonneg ∧
      verifyTrajectory (Vector.replicate 32 0x42) (D3.heartbeatContext 1)
        (deriveTrajectory (.exact zeroHmac) (Vector.replicate 32 0x42) (D3.heartbeatContext 1))
        (.trajectoryMatch ((0.1 : ℚ) : ℝ)) = .error .authenticationFailure := by
  have nonneg : (0 : ℝ) ≤ ((0.1 : ℚ) : ℝ) := by norm_num
  have narrow : ((0.1 : ℚ) : ℝ) < quarterTurn := by
    rw [quarterTurn_eq]
    exact lt_of_lt_of_le (by norm_num) one_le_pi_div_two
  refine ⟨nonneg, ?_⟩
  rw [verifyTrajectory_self, if_pos]
  refine List.any_eq_true.mpr ⟨firstSample, List.mem_finRange _, decide_eq_true ?_⟩
  exact narrow.trans_eq (selfDistance_stokesFromBytes_blank (blank_zeroHmac _ _ _)).symm

end Otap.Obg
