import Nagi.Fat32.Layout

/-! Which volumes have a geometry.

The size of the tables and the number of clusters depend on each other. The
search goes on with the size that the clusters beside the last guess need, until
a guess needs just itself. -/

namespace Nagi.Fat32.Geometry

open Lib Words

/-- Tables of a size that leave a proper number of clusters and have entries for all of them. -/
structure Fits (totalSectors sectorsPerCluster fatSectors clusters : Nat) : Prop where
  inVolume : 32 + 2 * fatSectors < totalSectors
  counted : clusters = (totalSectors - 32 - 2 * fatSectors) / sectorsPerCluster
  atLeast : 65525 ≤ clusters
  atMost : clusters ≤ 0x0fffffef
  covered : clusters + 2 ≤ 128 * fatSectors

/-- Tables without a sector to spare. -/
structure Tight (totalSectors sectorsPerCluster fatSectors clusters : Nat) : Prop
    extends Fits totalSectors sectorsPerCluster fatSectors clusters where
  least : 128 * (fatSectors - 1) < clusters + 2

section
variable (total part : Nat)

def clustersBeside (fatSectors : Nat) : Nat := (total - (reservedSectors + fatCount * fatSectors)) / part

def required (fatSectors : Nat) : Nat := divCeil (clustersBeside total part fatSectors + 2) entriesPerFatSector

theorem clustersBeside_le (guess : Nat) : clustersBeside total part guess ≤ total - 32 :=
  Nat.le_trans (Nat.div_le_self _ _) (Nat.sub_le_sub_left (Nat.le_add_right _ _) _)

/-- A sector more in both tables takes two clusters at most, of the 128 that it has entries for. -/
theorem required_bounds (positive : 0 < part) (guess distance : Nat) :
    required total part (guess + distance) ≤ required total part guess ∧
      required total part guess ≤ required total part (guess + distance) + (distance + 63) / 64 := by
  have fewer : clustersBeside total part (guess + distance) ≤ clustersBeside total part guess :=
    Nat.div_le_div_right (by unfold fatCount; omega)
  have taken : clustersBeside total part guess ≤ clustersBeside total part (guess + distance) + 2 * distance := by
    unfold clustersBeside
    rw [← Nat.add_mul_div_right _ _ positive]
    refine Nat.div_le_div_right ?_
    have := Nat.le_mul_of_pos_right (2 * distance) positive
    unfold fatCount
    omega
  unfold required divCeil entriesPerFatSector sectorSize
  omega

variable {total part} (word : total < 2 ^ 32) (rounds : Nat) {guess : Nat}
include word

theorem search_inside (inside : reservedSectors + fatCount * guess < total) :
    search total part (rounds + 1) guess =
      if required total part guess = guess then
        if clustersBeside total part guess < minFat32Clusters ∨ clustersBeside total part guess > maxFat32Clusters then
          reject .geometry
        else .ok ⟨total, part, guess, clustersBeside total part guess⟩
      else search total part rounds (required total part guess) := by
  have few := clustersBeside_le total part guess
  rw [search, checkedMul, if_pos (by omega), okOr, pure_bind, checkedAdd, if_pos (by omega), okOr, pure_bind]
  refine (if_neg (Nat.not_le.mpr inside)).trans ?_
  change add 32 (clustersBeside total part guess) 2 >>= _ = _
  rw [add_bind (by unfold reservedSectors at inside; omega)]
  rfl

theorem search_reports : Checks.Meets Fault.Reported (fun _ => True) (search total part rounds guess) := by
  induction rounds generalizing guess with
  | zero => exact .error ⟨_, rfl⟩
  | succ rounds ih =>
    refine (meets_okOr _ _).bind fun tables _ => (meets_okOr _ _).bind fun overhead added => ?_
    obtain ⟨_, added⟩ := checkedAdd_eq_some_iff.mp added
    refine .ite ⟨_, rfl⟩ fun inside => (meets_add ?_).bind fun entries _ => ?_
    · have := Nat.div_le_self (total - overhead) part
      unfold reservedSectors at added
      omega
    dsimp only
    split
    · exact .ite ⟨_, rfl⟩ fun _ => .ok trivial
    · exact ih

namespace Tight

variable {fatSectors clusters : Nat} (positive : 0 < part) (tight : Tight total part fatSectors clusters)
include tight

omit word in
theorem clusters_eq : clustersBeside total part fatSectors = clusters := by
  rw [tight.counted, clustersBeside, Nat.sub_sub]
  rfl

omit word in
theorem required_self : required total part fatSectors = fatSectors := by
  have covered := tight.covered
  have least := tight.least
  unfold required divCeil entriesPerFatSector sectorSize
  rw [tight.clusters_eq]
  omega

theorem search_self (here : guess = fatSectors) :
    search total part (rounds + 1) guess = .ok ⟨total, part, fatSectors, clusters⟩ := by
  rw [here, search_inside word rounds tight.inVolume, if_pos tight.required_self, tight.clusters_eq]
  exact if_neg (not_or.mpr ⟨Nat.not_lt.mpr tight.atLeast, Nat.not_lt.mpr tight.atMost⟩)

omit word in
theorem required_inside (guess : Nat) : reservedSectors + fatCount * required total part guess < total := by
  have many := tight.atLeast
  have few := clustersBeside_le total part fatSectors
  have clusters := clustersBeside_le total part guess
  rw [tight.clusters_eq] at few
  unfold required divCeil entriesPerFatSector sectorSize reservedSectors fatCount
  omega

include positive

omit word in
/-- What a guess needs lies on the other side of the right size, and 64 times nearer to it. -/
theorem required_near (guess : Nat) :
    (guess ≤ fatSectors → fatSectors ≤ required total part guess ∧
      required total part guess ≤ fatSectors + (fatSectors - guess + 63) / 64) ∧
    (fatSectors ≤ guess → required total part guess ≤ fatSectors ∧
      fatSectors ≤ required total part guess + (guess - fatSectors + 63) / 64) := by
  have self := tight.required_self
  constructor
  · intro smaller
    have bounds := required_bounds total part positive guess (fatSectors - guess)
    rw [Nat.add_sub_cancel' smaller] at bounds
    omega
  · intro larger
    have bounds := required_bounds total part positive fatSectors (guess - fatSectors)
    rw [Nat.add_sub_cancel' larger] at bounds
    omega

theorem search_next (other : guess ≠ fatSectors) (inside : reservedSectors + fatCount * guess < total) :
    search total part (rounds + 1) guess = search total part rounds (required total part guess) := by
  rw [search_inside word rounds inside]
  refine if_neg fun self => other ?_
  have near := tight.required_near positive guess
  omega

/-- Next to the right size, two guesses in a row miss it only on different sides, and the third is right. -/
theorem search_beside (inside : reservedSectors + fatCount * guess < total) (below : guess ≤ fatSectors + 1)
    (above : fatSectors ≤ guess + 1) :
    search total part (rounds + 3) guess = .ok ⟨total, part, fatSectors, clusters⟩ := by
  by_cases first : guess = fatSectors
  · exact tight.search_self word _ first
  rw [tight.search_next word _ positive first inside]
  by_cases second : required total part guess = fatSectors
  · exact tight.search_self word _ second
  have third : required total part (required total part guess) = fatSectors := by
    have near := tight.required_near positive guess
    have again := tight.required_near positive (required total part guess)
    rcases Nat.lt_or_gt_of_ne first with smaller | larger
    · have across := required_bounds total part positive guess 2
      rw [show guess + 2 = required total part guess by omega] at across
      omega
    · have across := required_bounds total part positive (required total part guess) 2
      rw [show required total part guess + 2 = guess by omega] at across
      omega
  rw [tight.search_next word _ positive second (tight.required_inside guess)]
  exact tight.search_self word _ third

theorem search_near (inside : reservedSectors + fatCount * guess < total) (below : guess ≤ fatSectors + 64 ^ rounds)
    (above : fatSectors ≤ guess + 64 ^ rounds) :
    search total part (rounds + 3) guess = .ok ⟨total, part, fatSectors, clusters⟩ := by
  induction rounds generalizing guess with
  | zero => exact tight.search_beside word 0 positive inside below above
  | succ rounds ih =>
    by_cases here : guess = fatSectors
    · exact tight.search_self word _ here
    have near := tight.required_near positive guess
    rw [tight.search_next word _ positive here inside]
    apply ih (tight.required_inside guess) <;> omega

end Tight
end

theorem compute_tables (totalSectors : UInt32) (exponent : Fin 8) :
    match compute totalSectors.toNat (2 ^ exponent.val) with
    | .ok geometry => Tight totalSectors.toNat (2 ^ exponent.val) geometry.fatSectors geometry.clusterCount
    | .error fault => fault.Reported ∧ ∀ fatSectors clusters,
        ¬Tight totalSectors.toNat (2 ^ exponent.val) fatSectors clusters := by
  have word := totalSectors.toNat_lt
  have allowed : compute totalSectors.toNat (2 ^ exponent.val) = search totalSectors.toNat (2 ^ exponent.val) 16 1 :=
    if_neg (by decide +revert)
  cases computed : compute totalSectors.toNat (2 ^ exponent.val) with
  | ok geometry =>
    obtain ⟨sound, same, parts⟩ := compute_sound computed
    have tables := sound.tables
    have counted := sound.clusters
    rw [same, parts, firstDataSector, ← Nat.sub_sub] at counted
    unfold divCeil entriesPerFatSector sectorSize at tables
    exact ⟨⟨same ▸ sound.inVolume, counted, sound.atLeast, sound.atMost, by omega⟩, by omega⟩
  | error fault =>
    rw [allowed] at computed
    refine ⟨(search_reports word _).failed fault computed, fun fatSectors clusters tight => ?_⟩
    have inVolume := tight.inVolume
    have covered := tight.covered
    have inside : reservedSectors + fatCount * 1 < totalSectors.toNat := by
      unfold reservedSectors fatCount
      omega
    rw [tight.search_near word 13 (Nat.two_pow_pos _) inside (by omega) (by omega)] at computed
    cases computed

/-- A geometry that is found has tables that fit, and an error means that no tables do. -/
def Complete (totalSectors sectorsPerCluster : Nat) : Prop :=
  match compute totalSectors sectorsPerCluster with
  | .ok geometry => Fits totalSectors sectorsPerCluster geometry.fatSectors geometry.clusterCount
  | .error fault => fault.Reported ∧ ∀ fatSectors clusters, ¬Fits totalSectors sectorsPerCluster fatSectors clusters

/-- The search is complete for a volume exactly if tables without a sector to spare fit it, or none do. -/
theorem compute_complete_iff (totalSectors : UInt32) (exponent : Fin 8) :
    Complete totalSectors.toNat (2 ^ exponent.val) ↔
      (∃ fatSectors clusters, Tight totalSectors.toNat (2 ^ exponent.val) fatSectors clusters) ∨
        ∀ fatSectors clusters, ¬Fits totalSectors.toNat (2 ^ exponent.val) fatSectors clusters := by
  have tables := compute_tables totalSectors exponent
  unfold Complete
  cases computed : compute totalSectors.toNat (2 ^ exponent.val) with
  | ok geometry =>
    rw [computed] at tables
    exact iff_of_true tables.toFits (.inl ⟨_, _, tables⟩)
  | error fault =>
    rw [computed] at tables
    obtain ⟨reported, none⟩ := tables
    refine ⟨fun complete => .inr complete.2, fun either => ⟨reported, either.resolve_left ?_⟩⟩
    rintro ⟨fatSectors, clusters, tight⟩
    exact none fatSectors clusters tight

/-- The guesses 512 and 513 need each other; in the largest volume larger tables would leave no more clusters than there
may be. -/
theorem compute_refused : (compute 66591 1 = reject .geometry ∧ Fits 66591 1 513 65533) ∧
    compute 0xffffffff 1 = reject .geometry ∧ Fits 0xffffffff 1 2013265912 268435439 := by
  refine ⟨⟨by decide +kernel, ?_⟩, by decide +kernel, ?_⟩ <;> constructor <;> decide +kernel

end Nagi.Fat32.Geometry
