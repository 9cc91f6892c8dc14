import Bam.Coprocessor.SlotSearch
import Mathlib.Data.Nat.Find

namespace Bam
namespace Coprocessor

/-!
# Searching a beacon chain

The windows and the halving are described on the chain alone: which slots
bracket the target, and which brackets a bisection that sees every block
visits.  `find_slot_for_exec_block` returns the target exactly when one of its
windows brackets it and no visited midpoint starts a run of
`PROBE_BLOCK_DEPTH` missed slots in front of it.
-/

/-- A head slot, and the execution blocks of the slots that are not missed. -/
structure BeaconChain where
  headSlot : Nat
  execBlockAt : Nat → Option Nat
  future :
    ∀ slot, headSlot < slot → execBlockAt slot = none
  increasing :
    ∀ earlier later first second,
      earlier < later →
      execBlockAt earlier = some first →
      execBlockAt later = some second →
      first < second

namespace BeaconChain

variable {chain : BeaconChain}

theorem block_lt_iff
    {earlier later first second : Nat}
    (holdsFirst : chain.execBlockAt earlier = some first)
    (holdsSecond : chain.execBlockAt later = some second) :
    first < second ↔ earlier < later := by
  constructor
  · intro below
    rcases Nat.lt_trichotomy earlier later with before | same | after
    · exact before
    · subst same
      rw [holdsFirst] at holdsSecond
      cases holdsSecond
      exact absurd below (Nat.lt_irrefl _)
    · have := chain.increasing _ _ _ _ after holdsSecond holdsFirst
      exact absurd below (Nat.lt_asymm this)
  · intro before
    exact chain.increasing _ _ _ _ before holdsFirst holdsSecond

theorem block_le_iff
    {earlier later first second : Nat}
    (holdsFirst : chain.execBlockAt earlier = some first)
    (holdsSecond : chain.execBlockAt later = some second) :
    first ≤ second ↔ earlier ≤ later := by
  rw [← Nat.not_lt, ← Nat.not_lt, block_lt_iff holdsSecond holdsFirst]

theorem block_eq_iff
    {earlier later first second : Nat}
    (holdsFirst : chain.execBlockAt earlier = some first)
    (holdsSecond : chain.execBlockAt later = some second) :
    first = second ↔ earlier = later := by
  rw [Nat.le_antisymm_iff, Nat.le_antisymm_iff,
    block_le_iff holdsFirst holdsSecond,
    block_le_iff holdsSecond holdsFirst]

/-- Every slot from `start` to below `stop` was missed. -/
def Missed
    (chain : BeaconChain)
    (start stop : Nat) : Prop :=
  ∀ slot, start ≤ slot → slot < stop → chain.execBlockAt slot = none

/-- The first block at or after `start`. -/
structure FirstBlock
    (chain : BeaconChain)
    (start slot : Nat) : Prop where
  atLeast : start ≤ slot
  holds : ∃ blockNumber, chain.execBlockAt slot = some blockNumber
  missed : chain.Missed start slot

/-- The last block at or before `stop`. -/
structure LastBlock
    (chain : BeaconChain)
    (stop slot : Nat) : Prop where
  atMost : slot ≤ stop
  holds : ∃ blockNumber, chain.execBlockAt slot = some blockNumber
  missed : chain.Missed (slot + 1) (stop + 1)

theorem FirstBlock.le
    {start slot other blockNumber : Nat}
    (first : chain.FirstBlock start slot)
    (atLeast : start ≤ other)
    (holds : chain.execBlockAt other = some blockNumber) :
    slot ≤ other := by
  by_contra before
  rw [first.missed other atLeast (Nat.lt_of_not_le before)] at holds
  cases holds

theorem LastBlock.le
    {stop slot other blockNumber : Nat}
    (last : chain.LastBlock stop slot)
    (atMost : other ≤ stop)
    (holds : chain.execBlockAt other = some blockNumber) :
    other ≤ slot := by
  by_contra after
  rw [last.missed other (Nat.lt_of_not_le after)
    (Nat.lt_succ_of_le atMost)] at holds
  cases holds

theorem exists_firstBlock
    {target execBlock : Nat}
    (start : Nat)
    (atMost : start ≤ target)
    (onChain : chain.execBlockAt target = some execBlock) :
    ∃ slot, chain.FirstBlock start slot ∧ slot ≤ target := by
  classical
  have reachable : ∃ slot, start ≤ slot ∧
      ∃ blockNumber, chain.execBlockAt slot = some blockNumber :=
    ⟨target, atMost, execBlock, onChain⟩
  obtain ⟨atLeast, holds⟩ := Nat.find_spec reachable
  refine ⟨Nat.find reachable, ⟨atLeast, holds, ?_⟩,
    Nat.find_min' reachable ⟨atMost, execBlock, onChain⟩⟩
  intro slot lower upper
  cases here : chain.execBlockAt slot with
  | none => rfl
  | some blockNumber =>
      exact absurd ⟨lower, blockNumber, here⟩ (Nat.find_min reachable upper)

theorem exists_lastBlock
    {target execBlock stop : Nat}
    (atMost : target ≤ stop)
    (onChain : chain.execBlockAt target = some execBlock) :
    ∃ slot, chain.LastBlock stop slot ∧ target ≤ slot := by
  induction stop with
  | zero =>
      refine ⟨0, ⟨Nat.le_refl _, ?_, ?_⟩, atMost⟩
      · rw [Nat.le_zero.mp atMost] at onChain
        exact ⟨execBlock, onChain⟩
      · intro slot above within
        omega
  | succ stop ih =>
      cases here : chain.execBlockAt (stop + 1) with
      | some blockNumber =>
          refine ⟨stop + 1, ⟨Nat.le_refl _, ⟨_, here⟩, ?_⟩, atMost⟩
          intro slot above within
          omega
      | none =>
          have differs : target ≠ stop + 1 := by
            intro same
            rw [same, here] at onChain
            cases onChain
          obtain ⟨slot, last, above⟩ := ih (by omega)
          refine ⟨slot, ⟨Nat.le_succ_of_le last.atMost, last.holds, ?_⟩,
            above⟩
          intro other higher within
          rcases Nat.eq_or_lt_of_le (Nat.lt_succ_iff.mp within) with
            same | before
          · rw [same]
            exact here
          · exact last.missed other higher before

/-- The outer blocks of a window lie within the reach of a probe and around
the target. -/
structure Brackets
    (chain : BeaconChain)
    (approx target window lo hi : Nat) : Prop where
  first : chain.FirstBlock (approx - window) lo
  firstNear : lo < approx - window + PROBE_BLOCK_DEPTH
  last : chain.LastBlock (approx + window) hi
  lastNear : approx + window < hi + PROBE_BLOCK_DEPTH
  lower : lo ≤ target
  upper : target ≤ hi

/-- The brackets of a bisection that always sees the next block. -/
inductive Visits
    (chain : BeaconChain)
    (target : Nat) : Int → Int → Int → Int → Prop where
  | here (lo hi : Int) : Visits chain target lo hi lo hi
  | lower {lo hi innerLo innerHi : Int} :
      (target : Int) < (lo + hi) / 2 →
      Visits chain target lo ((lo + hi) / 2 - 1) innerLo innerHi →
      Visits chain target lo hi innerLo innerHi
  | upper {lo hi innerLo innerHi : Int} {slot : Nat} :
      chain.FirstBlock ((lo + hi) / 2).toNat slot →
      slot < target →
      Visits chain target (slot + 1) hi innerLo innerHi →
      Visits chain target lo hi innerLo innerHi

/-- The midpoint starts a run of missed slots in front of the target that is
longer than a probe. -/
def Gap
    (chain : BeaconChain)
    (target : Nat)
    (lo hi : Int) : Prop :=
  ((lo + hi) / 2).toNat + PROBE_BLOCK_DEPTH ≤ target ∧
    chain.Missed ((lo + hi) / 2).toNat
      (((lo + hi) / 2).toNat + PROBE_BLOCK_DEPTH)

/-- The smallest window that brackets the target has no gap at a midpoint. -/
def Finds
    (chain : BeaconChain)
    (approx target : Nat) : Prop :=
  ∃ earlier window later lo hi,
    BRACKET_WINDOWS = earlier ++ window :: later ∧
      (∀ other ∈ earlier, ∀ otherLo otherHi,
        ¬ chain.Brackets approx target other otherLo otherHi) ∧
      chain.Brackets approx target window lo hi ∧
      ∀ innerLo innerHi,
        chain.Visits target lo hi innerLo innerHi →
          ¬ chain.Gap target innerLo innerHi

/-- Every run of missed slots between `start` and `stop` is shorter than a
probe. -/
def Dense
    (chain : BeaconChain)
    (start stop : Nat) : Prop :=
  ∀ slot, start ≤ slot → slot + PROBE_BLOCK_DEPTH ≤ stop + 1 →
    ∃ other blockNumber,
      slot ≤ other ∧ other < slot + PROBE_BLOCK_DEPTH ∧
        chain.execBlockAt other = some blockNumber

theorem Visits.within
    {target : Nat}
    {lo hi innerLo innerHi : Int}
    (visits : chain.Visits target lo hi innerLo innerHi)
    (positive : 0 ≤ lo)
    (lower : lo ≤ target)
    (upper : target ≤ hi) :
    lo ≤ innerLo ∧ innerLo ≤ target ∧ (target : Int) ≤ innerHi := by
  induction visits with
  | here => exact ⟨Int.le_refl _, lower, upper⟩
  | lower above _ ih => exact ih positive lower (by omega)
  | upper first before _ ih =>
      have progress := first.atLeast
      obtain ⟨atLeast, rest⟩ := ih (by omega) (by omega) upper
      exact ⟨by omega, rest⟩

/-- In a dense window no midpoint starts a gap. -/
theorem Dense.not_gap
    {target start stop : Nat}
    {lo hi : Int}
    (dense : chain.Dense start stop)
    (above : start ≤ lo)
    (lower : lo ≤ target)
    (upper : (target : Int) ≤ hi)
    (inside : target ≤ stop) :
    ¬ chain.Gap target lo hi := by
  rintro ⟨far, missed⟩
  obtain ⟨other, blockNumber, atLeast, below, holds⟩ :=
    dense ((lo + hi) / 2).toNat (by omega) (by omega)
  rw [missed other atLeast below] at holds
  cases holds

/-- A dense window around the target brackets it. -/
theorem Dense.brackets
    {approx target execBlock window : Nat}
    (dense : chain.Dense (approx - window) (approx + window))
    (onChain : chain.execBlockAt target = some execBlock)
    (wide : PROBE_BLOCK_DEPTH ≤ window)
    (lower : approx - window ≤ target)
    (upper : target ≤ approx + window) :
    ∃ lo hi, chain.Brackets approx target window lo hi := by
  obtain ⟨early, _, _, earlyNear, earlyHolds⟩ :=
    dense (approx - window) (Nat.le_refl _) (by omega)
  obtain ⟨late, _, lateNear, lateBelow, lateHolds⟩ :=
    dense (approx + window + 1 - PROBE_BLOCK_DEPTH) (by omega) (by omega)
  obtain ⟨lo, first, atMost⟩ :=
    chain.exists_firstBlock (approx - window) lower onChain
  obtain ⟨hi, last, atLeast⟩ := chain.exists_lastBlock upper onChain
  have toEarly := first.le (by assumption) earlyHolds
  have toLate := last.le (by omega) lateHolds
  exact ⟨lo, hi, first, by omega, last, by omega, atMost, atLeast⟩

theorem windows_increase : BRACKET_WINDOWS.Pairwise (· < ·) := by
  decide

theorem windows_wide
    {window : Nat}
    (listed : window ∈ BRACKET_WINDOWS) :
    PROBE_BLOCK_DEPTH ≤ window := by
  have wide : ∀ window ∈ BRACKET_WINDOWS, PROBE_BLOCK_DEPTH ≤ window := by
    decide
  exact wide window listed

end BeaconChain

section Search

variable {chain : BeaconChain} {execBlock target : Nat}

theorem probeForward_finds
    {start slot blockNumber : Nat}
    (upperInclusive : Nat)
    (holds : chain.execBlockAt slot = some blockNumber)
    (first : chain.FirstBlock start slot)
    (near : slot < start + PROBE_BLOCK_DEPTH)
    (inside : slot ≤ upperInclusive) :
    probeForward chain.execBlockAt start upperInclusive =
      some (slot, blockNumber) :=
  probeForward_eq_some_iff.mpr
    ⟨first.atLeast, near, inside, holds, first.missed⟩

/-- A window is accepted exactly where its outer blocks bracket the target. -/
theorem bracketIn_eq_some_iff
    {approx window lo hi : Nat}
    (onChain : chain.execBlockAt target = some execBlock) :
    bracketIn chain.execBlockAt execBlock approx window = some (lo, hi) ↔
      chain.Brackets approx target window lo hi := by
  constructor
  · intro accepted
    rw [bracketIn] at accepted
    cases forward : probeForward chain.execBlockAt (approx - window)
        (approx + window) with
    | none =>
        rw [forward] at accepted
        cases accepted
    | some lowest =>
        obtain ⟨slotLo, blockLo⟩ := lowest
        rw [forward] at accepted
        dsimp only at accepted
        cases backward : probeBackward chain.execBlockAt (approx + window)
            (approx - window) with
        | none =>
            rw [backward] at accepted
            cases accepted
        | some highest =>
            obtain ⟨slotHi, blockHi⟩ := highest
            rw [backward] at accepted
            dsimp only at accepted
            split at accepted
            · rename_i around
              cases accepted
              obtain ⟨atLeast, firstNear, _, holdsLo, missedLo⟩ :=
                probeForward_eq_some_iff.mp forward
              obtain ⟨_, atMost, lastNear, holdsHi, missedHi⟩ :=
                probeDown_eq_some_iff.mp backward
              have lower :=
                (BeaconChain.block_le_iff holdsLo onChain).mp around.1
              have upper :=
                (BeaconChain.block_le_iff onChain holdsHi).mp around.2
              exact {
                first := ⟨atLeast, ⟨_, holdsLo⟩, missedLo⟩
                firstNear := firstNear
                last := ⟨atMost, ⟨_, holdsHi⟩, fun slot above within =>
                  missedHi slot above (Nat.lt_succ_iff.mp within)⟩
                lastNear := lastNear
                lower := lower
                upper := upper
              }
            · cases accepted
  · intro brackets
    obtain ⟨blockLo, holdsLo⟩ := brackets.first.holds
    obtain ⟨blockHi, holdsHi⟩ := brackets.last.holds
    have ordered := Nat.le_trans brackets.lower brackets.upper
    have forward :
        probeForward chain.execBlockAt (approx - window)
          (approx + window) = some (lo, blockLo) :=
      probeForward_finds _ holdsLo brackets.first brackets.firstNear
        (Nat.le_trans ordered brackets.last.atMost)
    have backward :
        probeBackward chain.execBlockAt (approx + window)
          (approx - window) = some (hi, blockHi) :=
      probeDown_eq_some_iff.mpr
        ⟨Nat.le_trans brackets.first.atLeast ordered,
          brackets.last.atMost, brackets.lastNear, holdsHi,
          fun slot above within =>
            brackets.last.missed slot above (Nat.lt_succ_of_le within)⟩
    have around : blockLo ≤ execBlock ∧ execBlock ≤ blockHi :=
      ⟨(BeaconChain.block_le_iff holdsLo onChain).mpr brackets.lower,
        (BeaconChain.block_le_iff onChain holdsHi).mpr brackets.upper⟩
    rw [bracketIn, forward, backward]
    exact if_pos around

theorem halve_of_none
    {turns : Nat}
    {lo hi : Int}
    (notEmpty : lo ≤ hi)
    (probe : probeForward chain.execBlockAt ((lo + hi) / 2).toNat
      hi.toNat = none) :
    halve chain.execBlockAt execBlock (turns + 1) lo hi =
      halve chain.execBlockAt execBlock turns lo ((lo + hi) / 2 - 1) := by
  rw [halve, if_pos notEmpty]
  dsimp only
  rw [probe]

theorem halve_of_some
    {turns slot blockNumber : Nat}
    {lo hi : Int}
    (notEmpty : lo ≤ hi)
    (probe : probeForward chain.execBlockAt ((lo + hi) / 2).toNat
      hi.toNat = some (slot, blockNumber)) :
    halve chain.execBlockAt execBlock (turns + 1) lo hi =
      if blockNumber = execBlock then some (.ok slot)
      else if blockNumber < execBlock then
        halve chain.execBlockAt execBlock turns (slot + 1) hi
      else
        halve chain.execBlockAt execBlock turns lo ((lo + hi) / 2 - 1) := by
  rw [halve, if_pos notEmpty]
  dsimp only
  rw [probe]

/-- One turn below a midpoint above the target. -/
theorem halve_lower
    {turns : Nat}
    {lo hi : Int}
    (onChain : chain.execBlockAt target = some execBlock)
    (notEmpty : lo ≤ hi)
    (above : (target : Int) < (lo + hi) / 2) :
    halve chain.execBlockAt execBlock (turns + 1) lo hi =
      halve chain.execBlockAt execBlock turns lo ((lo + hi) / 2 - 1) := by
  cases probe : probeForward chain.execBlockAt ((lo + hi) / 2).toNat
      hi.toNat with
  | none => exact halve_of_none notEmpty probe
  | some found =>
      obtain ⟨slot, blockNumber⟩ := found
      obtain ⟨atLeast, _, _, holds, _⟩ := probeForward_eq_some_iff.mp probe
      have later : target < slot := by omega
      have greater := (BeaconChain.block_lt_iff onChain holds).mpr later
      rw [halve_of_some notEmpty probe, if_neg (Nat.ne_of_gt greater),
        if_neg (Nat.lt_asymm greater)]

/-- A probe without a block is taken for the end of the chain. -/
theorem halve_missed
    {turns : Nat}
    {lo hi : Int}
    (notEmpty : lo ≤ hi)
    (missed : chain.Missed ((lo + hi) / 2).toNat
      (((lo + hi) / 2).toNat + PROBE_BLOCK_DEPTH)) :
    halve chain.execBlockAt execBlock (turns + 1) lo hi =
      halve chain.execBlockAt execBlock turns lo ((lo + hi) / 2 - 1) := by
  apply halve_of_none notEmpty
  rw [probeForward_eq_none_iff]
  intro other lower upper _
  exact missed other lower upper

/-- One turn above the next block, where it comes before the target. -/
theorem halve_upper
    {turns slot : Nat}
    {lo hi : Int}
    (onChain : chain.execBlockAt target = some execBlock)
    (notEmpty : lo ≤ hi)
    (within : (target : Int) ≤ hi)
    (first : chain.FirstBlock ((lo + hi) / 2).toNat slot)
    (near : slot < ((lo + hi) / 2).toNat + PROBE_BLOCK_DEPTH)
    (before : slot < target) :
    halve chain.execBlockAt execBlock (turns + 1) lo hi =
      halve chain.execBlockAt execBlock turns (slot + 1) hi := by
  obtain ⟨blockNumber, holds⟩ := first.holds
  have smaller := (BeaconChain.block_lt_iff holds onChain).mpr before
  have probe := probeForward_finds hi.toNat
    holds first near (by omega)
  rw [halve_of_some notEmpty probe, if_neg (Nat.ne_of_lt smaller),
    if_pos smaller]

/-- The turn whose next block is the target. -/
theorem halve_target
    {turns : Nat}
    {lo hi : Int}
    (onChain : chain.execBlockAt target = some execBlock)
    (notEmpty : lo ≤ hi)
    (within : (target : Int) ≤ hi)
    (first : chain.FirstBlock ((lo + hi) / 2).toNat target)
    (near : target < ((lo + hi) / 2).toNat + PROBE_BLOCK_DEPTH) :
    halve chain.execBlockAt execBlock (turns + 1) lo hi =
      some (.ok target) := by
  have probe := probeForward_finds hi.toNat
    onChain first near (by omega)
  rw [halve_of_some notEmpty probe, if_pos rfl]

/-- A bracket that has lost the target is searched to its end. -/
theorem halve_outside
    {turns : Nat}
    {lo hi : Int}
    (onChain : chain.execBlockAt target = some execBlock)
    (positive : 0 ≤ lo)
    (enough : hi + 1 - lo ≤ turns)
    (outside : (target : Int) < lo ∨ hi < target) :
    halve chain.execBlockAt execBlock turns lo hi =
      some (.error (.didNotConverge execBlock)) := by
  induction turns generalizing lo hi with
  | zero =>
      rw [halve, if_neg (by omega)]
  | succ turns ih =>
      by_cases notEmpty : lo ≤ hi
      · cases probe : probeForward chain.execBlockAt ((lo + hi) / 2).toNat
            hi.toNat with
        | none =>
            rw [halve_of_none notEmpty probe]
            exact ih positive (by omega) (by omega)
        | some found =>
            obtain ⟨slot, blockNumber⟩ := found
            obtain ⟨atLeast, _, atMost, holds, _⟩ :=
              probeForward_eq_some_iff.mp probe
            have differs : ¬ blockNumber = execBlock := by
              rw [BeaconChain.block_eq_iff holds onChain]
              omega
            rw [halve_of_some notEmpty probe, if_neg differs]
            by_cases smaller : blockNumber < execBlock
            · have before :=
                (BeaconChain.block_lt_iff holds onChain).mp smaller
              rw [if_pos smaller]
              exact ih (by omega) (by omega) (by omega)
            · have after : ¬ slot < target := fun before =>
                smaller ((BeaconChain.block_lt_iff holds onChain).mpr before)
              rw [if_neg smaller]
              exact ih positive (by omega) (by omega)
      · rw [halve, if_neg notEmpty]

/-- Without a gap at a midpoint, halving arrives at the target. -/
theorem halve_finds
    {turns : Nat}
    {lo hi : Int}
    (onChain : chain.execBlockAt target = some execBlock)
    (positive : 0 ≤ lo)
    (enough : hi + 1 - lo ≤ turns)
    (lower : lo ≤ target)
    (upper : (target : Int) ≤ hi)
    (noGap : ∀ innerLo innerHi,
      chain.Visits target lo hi innerLo innerHi →
        ¬ chain.Gap target innerLo innerHi) :
    halve chain.execBlockAt execBlock turns lo hi =
      some (.ok target) := by
  induction turns generalizing lo hi with
  | zero => omega
  | succ turns ih =>
      have notEmpty : lo ≤ hi := Int.le_trans lower upper
      by_cases above : (target : Int) < (lo + hi) / 2
      · rw [halve_lower onChain notEmpty above]
        exact ih positive (by omega) lower (by omega)
          fun innerLo innerHi visits =>
            noGap innerLo innerHi (.lower above visits)
      · obtain ⟨slot, first, atMost⟩ :=
          chain.exists_firstBlock ((lo + hi) / 2).toNat (by omega)
            onChain
        have near : slot < ((lo + hi) / 2).toNat + PROBE_BLOCK_DEPTH := by
          by_contra far
          exact noGap lo hi (.here lo hi)
            ⟨by omega, fun other lower upper =>
              first.missed other lower (by omega)⟩
        rcases Nat.eq_or_lt_of_le atMost with same | before
        · subst same
          exact halve_target onChain notEmpty upper first near
        · have progress := first.atLeast
          rw [halve_upper onChain notEmpty upper first near before]
          exact ih (by omega) (by omega) (by omega) upper
            fun innerLo innerHi visits =>
              noGap innerLo innerHi (.upper first before visits)

/-- A gap at a visited midpoint loses the target. -/
theorem halve_loses
    {turns : Nat}
    {lo hi innerLo innerHi : Int}
    (onChain : chain.execBlockAt target = some execBlock)
    (visits : chain.Visits target lo hi innerLo innerHi)
    (gap : chain.Gap target innerLo innerHi)
    (positive : 0 ≤ lo)
    (enough : hi + 1 - lo ≤ turns)
    (lower : lo ≤ target)
    (upper : (target : Int) ≤ hi) :
    halve chain.execBlockAt execBlock turns lo hi =
      some (.error (.didNotConverge execBlock)) := by
  induction visits generalizing turns with
  | here lo hi =>
      obtain ⟨turns, rfl⟩ : ∃ rest, turns = rest + 1 :=
        ⟨turns - 1, by omega⟩
      obtain ⟨far, missed⟩ := gap
      rw [halve_missed (Int.le_trans lower upper) missed]
      exact halve_outside onChain positive (by omega) (.inr (by omega))
  | @lower lo hi innerLo innerHi above visits ih =>
      obtain ⟨turns, rfl⟩ : ∃ rest, turns = rest + 1 :=
        ⟨turns - 1, by omega⟩
      rw [halve_lower onChain (Int.le_trans lower upper) above]
      exact ih gap positive (by omega) lower (by omega)
  | @upper lo hi innerLo innerHi slot first before visits ih =>
      obtain ⟨turns, rfl⟩ : ∃ rest, turns = rest + 1 :=
        ⟨turns - 1, by omega⟩
      have progress := first.atLeast
      have notEmpty := Int.le_trans lower upper
      by_cases near : slot < ((lo + hi) / 2).toNat + PROBE_BLOCK_DEPTH
      · rw [halve_upper onChain notEmpty upper first near before]
        exact ih gap (by omega) (by omega) (by omega) upper
      · have missed : chain.Missed ((lo + hi) / 2).toNat
            (((lo + hi) / 2).toNat + PROBE_BLOCK_DEPTH) :=
          fun other lower upper => first.missed other lower (by omega)
        rw [halve_missed notEmpty missed]
        exact halve_outside onChain positive (by omega) (.inr (by omega))

theorem findWindow_eq_some_iff
    {approx lo hi : Nat}
    (onChain : chain.execBlockAt target = some execBlock) :
    BRACKET_WINDOWS.findSome?
        (bracketIn chain.execBlockAt execBlock approx) = some (lo, hi) ↔
      ∃ earlier window later,
        BRACKET_WINDOWS = earlier ++ window :: later ∧
          (∀ other ∈ earlier, ∀ otherLo otherHi,
            ¬ chain.Brackets approx target other otherLo otherHi) ∧
          chain.Brackets approx target window lo hi := by
  rw [List.findSome?_eq_some_iff]
  constructor
  · rintro ⟨earlier, window, later, split, accepted, rejected⟩
    refine ⟨earlier, window, later, split, ?_,
      (bracketIn_eq_some_iff onChain).mp accepted⟩
    intro other member otherLo otherHi brackets
    have refused := rejected other member
    rw [(bracketIn_eq_some_iff onChain).mpr brackets] at refused
    cases refused
  · rintro ⟨earlier, window, later, split, rejected, brackets⟩
    refine ⟨earlier, window, later, split,
      (bracketIn_eq_some_iff onChain).mpr brackets, ?_⟩
    intro other member
    cases refused : bracketIn chain.execBlockAt execBlock approx other with
    | none => rfl
    | some bracket =>
        exact absurd ((bracketIn_eq_some_iff onChain).mp refused)
          (rejected other member bracket.1 bracket.2)

/-- A bracket spans at most the largest window. -/
theorem BeaconChain.Brackets.narrow
    {approx window lo hi : Nat}
    (brackets : chain.Brackets approx target window lo hi)
    (listed : window ∈ BRACKET_WINDOWS) :
    hi ≤ lo + 200000 := by
  have bounded : ∀ window ∈ BRACKET_WINDOWS, window ≤ 100000 := by
    decide
  have small := bounded window listed
  have lowest := brackets.first.atLeast
  have highest := brackets.last.atMost
  omega

theorem findSlotForExecBlock_unbracketed
    {approx turns : Nat}
    (unbracketed : BRACKET_WINDOWS.findSome?
      (bracketIn chain.execBlockAt execBlock approx) = none) :
    findSlotForExecBlock turns chain.execBlockAt execBlock approx =
      some (.error (.couldNotBracket execBlock approx)) := by
  unfold findSlotForExecBlock
  rw [unbracketed]

theorem findSlotForExecBlock_bracketed
    {approx turns lo hi : Nat}
    (bracketed : BRACKET_WINDOWS.findSome?
      (bracketIn chain.execBlockAt execBlock approx) = some (lo, hi)) :
    findSlotForExecBlock turns chain.execBlockAt execBlock approx =
      halve chain.execBlockAt execBlock turns lo hi := by
  unfold findSlotForExecBlock
  rw [bracketed]

/-- With a window and without a gap the target is returned. -/
theorem findSlotForExecBlock_finds
    {approx turns : Nat}
    (onChain : chain.execBlockAt target = some execBlock)
    (enough : 200001 ≤ turns)
    (finds : chain.Finds approx target) :
    findSlotForExecBlock turns chain.execBlockAt execBlock approx =
      some (.ok target) := by
  obtain ⟨earlier, window, later, lo, hi, split, rejected, brackets,
    noGap⟩ := finds
  have narrow := brackets.narrow (by rw [split]; simp)
  have lower := brackets.lower
  have upper := brackets.upper
  rw [findSlotForExecBlock_bracketed
    ((findWindow_eq_some_iff onChain).mpr
      ⟨earlier, window, later, split, rejected, brackets⟩)]
  exact halve_finds onChain (by omega) (by omega) (by omega) (by omega)
    noGap

/-- Without a window, or with a gap, the search ends in an error. -/
theorem findSlotForExecBlock_fails
    {approx turns : Nat}
    (onChain : chain.execBlockAt target = some execBlock)
    (enough : 200001 ≤ turns)
    (unfound : ¬ chain.Finds approx target) :
    ∃ error,
      findSlotForExecBlock turns chain.execBlockAt execBlock approx =
        some (.error error) := by
  cases bracketed : BRACKET_WINDOWS.findSome?
      (bracketIn chain.execBlockAt execBlock approx) with
  | none => exact ⟨_, findSlotForExecBlock_unbracketed bracketed⟩
  | some bracket =>
      obtain ⟨lo, hi⟩ := bracket
      obtain ⟨earlier, window, later, split, rejected, brackets⟩ :=
        (findWindow_eq_some_iff onChain).mp bracketed
      have narrow := brackets.narrow (by rw [split]; simp)
      have lower := brackets.lower
      have upper := brackets.upper
      have gapped : ∃ innerLo innerHi,
          chain.Visits target lo hi innerLo innerHi ∧
            chain.Gap target innerLo innerHi := by
        by_contra unseen
        exact unfound ⟨earlier, window, later, lo, hi, split, rejected,
          brackets, fun innerLo innerHi visits gap =>
            unseen ⟨innerLo, innerHi, visits, gap⟩⟩
      obtain ⟨innerLo, innerHi, visits, gap⟩ := gapped
      rw [findSlotForExecBlock_bracketed bracketed]
      exact ⟨_, halve_loses onChain visits gap (by omega) (by omega)
        (by omega) (by omega)⟩

/-- The search ends, and with the target exactly where a window brackets it
and no midpoint starts a gap. -/
theorem findSlotForExecBlock_eq_target_iff
    (chain : BeaconChain)
    (approx execBlock target turns : Nat)
    (onChain : chain.execBlockAt target = some execBlock)
    (enough : 200001 ≤ turns) :
    (findSlotForExecBlock turns chain.execBlockAt execBlock
        approx).isSome ∧
      (findSlotForExecBlock turns chain.execBlockAt execBlock approx =
          some (.ok target) ↔
        chain.Finds approx target) := by
  by_cases finds : chain.Finds approx target
  · rw [findSlotForExecBlock_finds onChain enough finds]
    exact ⟨rfl, ⟨fun _ => finds, fun _ => rfl⟩⟩
  · obtain ⟨error, failed⟩ :=
      findSlotForExecBlock_fails onChain enough finds
    rw [failed]
    refine ⟨rfl, ⟨?_, fun found => absurd found finds⟩⟩
    intro impossible
    cases impossible

/-- A dense window around the target is enough. -/
theorem BeaconChain.Dense.finds
    {approx window : Nat}
    (dense : chain.Dense (approx - window) (approx + window))
    (onChain : chain.execBlockAt target = some execBlock)
    (listed : window ∈ BRACKET_WINDOWS)
    (lower : approx - window ≤ target)
    (upper : target ≤ approx + window) :
    chain.Finds approx target := by
  obtain ⟨lo, hi, brackets⟩ :=
    dense.brackets onChain (BeaconChain.windows_wide listed) lower upper
  cases bracketed : BRACKET_WINDOWS.findSome?
      (bracketIn chain.execBlockAt execBlock approx) with
  | none =>
      rw [List.findSome?_eq_none_iff] at bracketed
      have refused := bracketed window listed
      rw [(bracketIn_eq_some_iff onChain).mpr brackets] at refused
      cases refused
  | some bracket =>
      obtain ⟨foundLo, foundHi⟩ := bracket
      obtain ⟨earlier, found, later, split, rejected, foundBrackets⟩ :=
        (findWindow_eq_some_iff onChain).mp bracketed
      have atMost : found ≤ window := by
        have increase := BeaconChain.windows_increase
        rw [split] at listed increase
        rcases List.mem_append.mp listed with early | late
        · exact absurd brackets (rejected window early lo hi)
        · rcases List.mem_cons.mp late with same | late
          · exact Nat.le_of_eq same.symm
          · exact Nat.le_of_lt
              ((List.pairwise_cons.mp
                (List.pairwise_append.mp increase).2.1).1 window late)
      have foundAbove := foundBrackets.first.atLeast
      have foundLower := foundBrackets.lower
      have foundUpper := foundBrackets.upper
      refine ⟨earlier, found, later, foundLo, foundHi, split, rejected,
        foundBrackets, ?_⟩
      intro innerLo innerHi visits
      obtain ⟨atLeast, innerLower, innerUpper⟩ :=
        visits.within (by omega) (by omega) (by omega)
      exact dense.not_gap (by omega) innerLower innerUpper upper

/-- A chain that has missed no slot. -/
def unbroken
    (headSlot : Nat) : BeaconChain where
  headSlot := headSlot
  execBlockAt slot := if slot ≤ headSlot then some slot else none
  future slot beyond := if_neg (Nat.not_le.mpr beyond)
  increasing earlier later first second before holdsFirst holdsSecond := by
    split at holdsFirst
    · split at holdsSecond
      · cases holdsFirst
        cases holdsSecond
        exact before
      · cases holdsSecond
    · cases holdsFirst

/-- The head block of a chain is not found under its exact estimate. -/
theorem findSlotForExecBlock_loses_head :
    (unbroken 1000).execBlockAt 1000 = some 1000 ∧
      ¬ ∃ turns,
        findSlotForExecBlock turns (unbroken 1000).execBlockAt 1000 1000 =
          some (.ok 1000) := by
  have unbracketed : BRACKET_WINDOWS.findSome?
      (bracketIn (unbroken 1000).execBlockAt 1000 1000) = none := by
    decide +kernel
  refine ⟨rfl, ?_⟩
  rintro ⟨turns, found⟩
  rw [findSlotForExecBlock_unbracketed unbracketed] at found
  cases found

/-- A chain that misses every fourth slot and, once, forty in a row. -/
def patchy
    (headSlot : Nat) : BeaconChain where
  headSlot := headSlot
  execBlockAt slot :=
    if slot ≤ headSlot ∧ slot % 4 ≠ 3 ∧ (slot < 1080 ∨ 1120 ≤ slot) then
      some (3 * (slot / 4) + slot % 4 - if slot < 1080 then 0 else 30)
    else none
  future slot beyond :=
    if_neg fun inside => Nat.not_le.mpr beyond inside.1
  increasing earlier later first second before holdsFirst holdsSecond := by
    obtain ⟨early, isFirst⟩ :=
      Option.ite_none_right_eq_some.mp holdsFirst
    obtain ⟨late, isSecond⟩ :=
      Option.ite_none_right_eq_some.mp holdsSecond
    rw [Option.some.injEq] at isFirst isSecond
    split at isFirst <;> split at isSecond <;> omega

theorem patchy_dense
    {headSlot start stop : Nat}
    (below : stop + PROBE_BLOCK_DEPTH ≤ headSlot) :
    (patchy headSlot).Dense start stop := by
  intro slot _ inside
  rw [PROBE_BLOCK_DEPTH] at inside below
  have block :
      ∀ other, other ≤ headSlot → other % 4 ≠ 3 →
        other < 1080 ∨ 1120 ≤ other →
        ∃ blockNumber,
          (patchy headSlot).execBlockAt other = some blockNumber :=
    fun other small present outside =>
      ⟨_, if_pos ⟨small, present, outside⟩⟩
  by_cases inRun : 1079 ≤ slot ∧ slot < 1120
  · obtain ⟨blockNumber, holds⟩ :=
      block 1120 (by omega) (by decide) (by omega)
    exact ⟨1120, blockNumber, by omega,
      by rw [PROBE_BLOCK_DEPTH]; omega, holds⟩
  · by_cases missed : slot % 4 = 3
    · obtain ⟨blockNumber, holds⟩ :=
        block (slot + 1) (by omega) (by omega) (by omega)
      exact ⟨slot + 1, blockNumber, by omega,
        by rw [PROBE_BLOCK_DEPTH]; omega, holds⟩
    · obtain ⟨blockNumber, holds⟩ :=
        block slot (by omega) missed (by omega)
      exact ⟨slot, blockNumber, Nat.le_refl _,
        by rw [PROBE_BLOCK_DEPTH]; omega, holds⟩

/-- Block 750 is found in slot 1000 though the estimate is 600 slots off, beyond
the reach of the smallest window. -/
theorem findSlotForExecBlock_eq_target_sample :
    bracketIn (patchy 5000).execBlockAt 750 1600 200 = none ∧
      findSlotForExecBlock 200001 (patchy 5000).execBlockAt 750 1600 =
        some (.ok 1000) := by
  have onChain : (patchy 5000).execBlockAt 1000 = some 750 := rfl
  have dense : (patchy 5000).Dense (1600 - 1000) (1600 + 1000) :=
    patchy_dense (by decide)
  have finds : (patchy 5000).Finds 1600 1000 :=
    dense.finds onChain (by decide) (by decide) (by decide)
  exact ⟨by decide +kernel,
    (findSlotForExecBlock_eq_target_iff (patchy 5000) 1600 750 1000
      200001 onChain (Nat.le_refl _)).2.mpr finds⟩

end Search

end Coprocessor
end Bam
