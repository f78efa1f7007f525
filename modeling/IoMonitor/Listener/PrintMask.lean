import IoMonitor.Lib.BitSet
import IoMonitor.Lib.Columns
import IoMonitor.Lib.Prog
import IoMonitor.Names

/-!
The runtime commands of the `filter_domains` plugin.

`print-mask` prints the names of the bits that are set, `update-mask` reads such
a list. Given back what it printed, the plugin has the mask that it had, unless
that came of `ALL`: the bits behind the table then have no name to print
(`mask_survives_iff`).
-/

namespace IoMonitor.Listener

open CString Columns Prog

/-- `struct plugin_state`, and what has been printed. -/
structure FilterState where
  domainBitFlags : BitVec 32
  stdout : Str
  deriving DecidableEq

def printf (text : Str) : Prog FilterState Unit :=
  modify fun s => { s with stdout := s.stdout ++ text }

/-- The loop of `print-mask`. A name behind the end of `domains_names` is undefined. -/
def printMaskLoop : Nat → Nat → BitVec 32 → Prog FilterState Unit
  | 0, _, _ => exhaust
  | fuel + 1, j, m =>
      if m = 0 then pure ()
      else if 1#32 <<< j &&& m = 0 then printMaskLoop fuel (j + 1) m
      else
        match domainsNames[j]? with
        | none => crash
        | some name => do
            printf name
            let m := m &&& ~~~(1#32 <<< j)
            if m = 0 then pure () else printf [',']
            printMaskLoop fuel (j + 1) m

def printMask (fuel : Nat) : Prog FilterState Unit := do
  printf "domain_mask:".toList
  printMaskLoop fuel 0 (← get).domainBitFlags
  printf ['\n']

@[simp] theorem printf_bind {α : Type} (text : Str) (f : Unit → Prog FilterState α)
    (s : FilterState) :
    (printf text >>= f) s = f () { s with stdout := s.stdout ++ text } := rfl

def openPlugin (pluginConfig : Str) : FilterState where
  domainBitFlags := domainListToBitMask pluginConfig
  stdout := []

/-- `plugin_command`, with the strings before the `NULL` of `args`. -/
def pluginCommand (fuel : Nat) : List Str → Prog FilterState Unit
  | [] => pure ()
  | [command] => if command = "print-mask".toList then printMask fuel else pure ()
  | command :: list :: _ =>
      if command = "update-mask".toList then
        modify fun s => { s with domainBitFlags := domainListToBitMask list }
      else if command = "print-mask".toList then printMask fuel
      else pure ()

/-! ### Reading -/

/-- The tokens of a domain list. -/
def domainTokens (domainList : Str) : List Str := strtok [','] [] domainList

theorem mem_addDomain {mask : BitVec 32} {token : Str} {j : Nat} :
    (addDomain mask token).getLsbD j = true ↔ mask.getLsbD j = true ∨
      domainsNames.findIdx? (· = token) = some j ∨ (token = "ALL".toList ∧ j < 32) := by
  have orAll : ∀ m : BitVec 32, (if token = "ALL".toList then m ||| ~~~0#32 else m).getLsbD j = true
      ↔ m.getLsbD j = true ∨ (token = "ALL".toList ∧ j < 32) := by
    intro m
    by_cases isAll : token = "ALL".toList
    · rw [if_pos isAll, BitVec.getLsbD_or, BitVec.getLsbD_not, BitVec.getLsbD_zero]
      simp only [isAll, Bool.not_false, Bool.and_true, Bool.or_eq_true, decide_eq_true_eq,
        true_and]
    · rw [if_neg isAll]
      exact (or_iff_left fun both => isAll both.1).symm
  unfold addDomain
  rw [orAll, ← or_assoc]
  refine or_congr_left ?_
  cases found : domainsNames.findIdx? (· = token) with
  | none => simp only [reduceCtorEq, or_false]
  | some i =>
      have inTable : i < domainsNames.length := (List.findIdx?_eq_some_iff_getElem.mp found).1
      have narrow : i < 32 := Nat.lt_trans inTable (by decide)
      simp only [BitSet.mem_insert, Option.some.injEq]
      exact or_congr_right (and_iff_left_of_imp fun same => same ▸ narrow)

/-- A bit is set by its name, and by `ALL`. -/
theorem mem_domainListToBitMask {domainList : Str} {j : Nat} :
    (domainListToBitMask domainList).getLsbD j = true ↔ ∃ token ∈ domainTokens domainList,
      domainsNames.findIdx? (· = token) = some j ∨ (token = "ALL".toList ∧ j < 32) := by
  suffices fold : ∀ tokens mask, (List.foldl addDomain mask tokens).getLsbD j = true ↔
      mask.getLsbD j = true ∨ ∃ token ∈ tokens,
        domainsNames.findIdx? (· = token) = some j ∨ (token = "ALL".toList ∧ j < 32) by
    rw [domainListToBitMask, fold]
    simp [domainTokens]
  intro tokens
  induction tokens with
  | nil => simp
  | cons token tokens ih =>
      intro mask
      rw [List.foldl_cons, ih, mem_addDomain, List.exists_mem_cons_iff, or_assoc]

/-- A list without `ALL` sets bits of the table only. -/
theorem inTable_iff {domainList : Str} :
    (∀ j, (domainListToBitMask domainList).getLsbD j = true → j < domainsNames.length) ↔
      "ALL".toList ∉ domainTokens domainList := by
  constructor
  · intro inTable all
    have set : (domainListToBitMask domainList).getLsbD 31 = true :=
      mem_domainListToBitMask.mpr ⟨_, all, .inr ⟨rfl, by decide⟩⟩
    exact absurd (inTable 31 set) (by decide)
  · intro noAll j set
    obtain ⟨token, mem, named | ⟨rfl, -⟩⟩ := mem_domainListToBitMask.mp set
    · exact (List.findIdx?_eq_some_iff_getElem.mp named).1
    · exact absurd mem noAll

/-! ### Printing -/

/-- The names of the bits, as they are printed. -/
def maskText (bits : List Nat) : Str := join ',' (bits.map (domainsNames.getD · []))

theorem maskText_cons (j : Nat) (bits : List Nat) :
    maskText (j :: bits) =
      domainsNames.getD j [] ++ (if bits = [] then [] else [',']) ++ maskText bits := by
  cases bits with
  | nil => simp [maskText, join]
  | cons k bits => simp [maskText, join_cons_cons]

/-- From `j` on the loop prints the names of the bits that are left. -/
theorem printMaskLoop_inTable {fuel j : Nat} {m : BitVec 32} {s : FilterState}
    (starts : BitSet.StartsAt m j) (inTable : ∀ i, m.getLsbD i = true → i < domainsNames.length)
    (enough : 32 ≤ fuel + j) :
    printMaskLoop (fuel + 1) j m s =
      .returned () { s with stdout := s.stdout ++ maskText (BitSet.membersFrom m j) } := by
  induction fuel generalizing j m s with
  | zero =>
      have none : m = 0 := by
        refine BitSet.eq_zero_iff.mpr fun i mem => ?_
        have := starts i mem
        have := BitVec.lt_of_getLsbD mem
        omega
      rw [printMaskLoop, if_pos none, starts.eq_zero_iff.mp none]
      simp [maskText, join]
  | succ fuel ih =>
      rw [printMaskLoop]
      split
      · rename_i none
        rw [starts.eq_zero_iff.mp none]
        simp [maskText, join]
      split
      · rename_i clear
        have notMem := BitSet.single_and_eq_zero.mp clear
        rw [ih (starts.succ notMem) inTable (by omega), BitSet.membersFrom_of_notMem notMem]
      · rename_i set
        have mem : m.getLsbD j = true := by simpa [BitSet.single_and_eq_zero] using set
        have name : domainsNames[j]? = some (domainsNames.getD j []) := by
          rw [List.getD_eq_getElem?_getD, List.getElem?_eq_getElem (inTable j mem),
            Option.getD_some]
        have rest : ∀ t, printMaskLoop (fuel + 1) (j + 1) (m &&& ~~~(1#32 <<< j)) t =
            .returned () { t with
              stdout := t.stdout ++ maskText (BitSet.membersFrom m (j + 1)) } := by
          intro t
          rw [ih starts.erase (fun i mem => inTable i (BitSet.mem_erase.mp mem).1) (by omega),
            BitSet.membersFrom_erase (Nat.lt_succ_self j)]
        have last : m &&& ~~~(1#32 <<< j) = 0 ↔ BitSet.membersFrom m (j + 1) = [] := by
          rw [← BitSet.membersFrom_erase (m := m) (Nat.lt_succ_self j)]
          exact starts.erase.eq_zero_iff
        rw [BitSet.membersFrom_of_mem mem, maskText_cons, name, ← if_congr last rfl rfl]
        dsimp only
        rw [printf_bind]
        split
        · rw [rest]
          simp
        · rw [printf_bind, rest]
          simp

/-- A bit behind the table stops the loop. -/
theorem printMaskLoop_outOfTable {fuel i j : Nat} {m : BitVec 32} {s t : FilterState}
    (mem : m.getLsbD i = true) (outside : domainsNames.length ≤ i) (from_ : j ≤ i) :
    printMaskLoop fuel j m s ≠ .returned () t := by
  induction fuel generalizing j m s with
  | zero =>
      intro ran
      cases ran
  | succ fuel ih =>
      have nonzero : m ≠ 0 := fun zero => BitSet.eq_zero_iff.mp zero i mem
      rw [printMaskLoop, if_neg nonzero]
      split
      · rename_i clear
        refine ih mem (Nat.lt_of_le_of_ne from_ ?_)
        rintro rfl
        exact BitSet.single_and_eq_zero.mp clear mem
      cases name : domainsNames[j]? with
      | none =>
          intro ran
          cases ran
      | some text =>
          have inTable : j < domainsNames.length := (List.getElem?_eq_some_iff.mp name).1
          have rest : (m &&& ~~~(1#32 <<< j)).getLsbD i = true :=
            BitSet.mem_erase.mpr ⟨mem, by omega⟩
          dsimp only
          rw [printf_bind]
          split
          · exact ih rest (by omega)
          · exact ih rest (by omega)

/-! ### Reading what was printed -/

theorem findIdx_name : ∀ i < domainsNames.length,
    domainsNames.findIdx? (· = domainsNames.getD i []) = some i := by decide

theorem name_ne_all {i : Nat} (inTable : i < domainsNames.length) :
    domainsNames.getD i [] ≠ "ALL".toList := by
  intro all
  have found := findIdx_name i inTable
  have unknown : domainsNames.findIdx? (· = "ALL".toList) = none := by decide
  rw [all, unknown] at found
  cases found

theorem domainTokens_maskText {bits : List Nat} (inTable : ∀ i ∈ bits, i < domainsNames.length) :
    domainTokens (maskText bits) = bits.map (domainsNames.getD · []) := by
  have whole : ∀ name ∈ domainsNames, ',' ∉ name ∧ name ≠ [] := by decide
  have words : ∀ word ∈ bits.map (domainsNames.getD · []), ',' ∉ word ∧ word ≠ [] := by
    intro word mem
    obtain ⟨i, set, rfl⟩ := List.mem_map.mp mem
    have name := List.getElem?_eq_getElem (inTable i set)
    rw [List.getD_eq_getElem?_getD, name, Option.getD_some]
    exact whole _ (List.getElem_mem _)
  rw [domainTokens, strtok_eq_splitOn, maskText]
  have id : ∀ pieces : List Str, pieces.modifyHead ([] ++ ·) = pieces := by
    intro pieces
    cases pieces <;> rfl
  rw [id]
  by_cases empty : bits = []
  · subst empty
    rfl
  · rw [splitOn_join _ (by simpa using empty), columns_of_notMem fun word mem => (words word mem).1,
      List.filter_eq_self.mpr fun word mem => by simpa using (words word mem).2]

/-- The list printed has the mask it was printed from. -/
theorem domainListToBitMask_maskText {m : BitVec 32}
    (inTable : ∀ i, m.getLsbD i = true → i < domainsNames.length) :
    domainListToBitMask (maskText (BitSet.membersFrom m 0)) = m := by
  have bits : ∀ i ∈ BitSet.membersFrom m 0, i < domainsNames.length :=
    fun i mem => inTable i (BitSet.mem_membersFrom.mp mem).2
  refine BitSet.ext_mem fun j => ?_
  rw [mem_domainListToBitMask, domainTokens_maskText bits]
  constructor
  · rintro ⟨token, mem, named⟩
    obtain ⟨i, set, rfl⟩ := List.mem_map.mp mem
    rw [findIdx_name i (bits i set), Option.some.injEq] at named
    rcases named with rfl | ⟨all, -⟩
    · exact (BitSet.mem_membersFrom.mp set).2
    · exact absurd all (name_ne_all (bits i set))
  · intro set
    have mem := BitSet.mem_membersFrom.mpr ⟨Nat.zero_le j, set⟩
    exact ⟨_, List.mem_map_of_mem mem, .inl (findIdx_name j (inTable j set))⟩

/-! ### Printing and reading again -/

/-- The states right after `open_plugin`, or `update-mask`, with the list. -/
inductive Configured (domainList : Str) : FilterState → Prop
  | opened : Configured domainList (openPlugin domainList)
  | updated {fuel : Nat} {rest : List Str} {s t : FilterState}
      (ran : pluginCommand fuel ("update-mask".toList :: domainList :: rest) s = .returned () t) :
      Configured domainList t

/-- `print-mask` ends, and the list that it prints makes the same mask of any other. -/
def MaskSurvives (s : FilterState) : Prop :=
  ∃ list, (∀ fuel, 32 < fuel → pluginCommand fuel ["print-mask".toList] s =
      .returned () { s with stdout := s.stdout ++ "domain_mask:".toList ++ list ++ ['\n'] }) ∧
    ∀ fuel t, pluginCommand fuel ["update-mask".toList, list] t =
      .returned () { t with domainBitFlags := s.domainBitFlags }

theorem pluginCommand_printMask (fuel : Nat) :
    pluginCommand fuel ["print-mask".toList] = printMask fuel := by
  rw [pluginCommand, if_pos rfl]

theorem pluginCommand_updateMask (fuel : Nat) (list : Str) (rest : List Str) (s : FilterState) :
    pluginCommand fuel ("update-mask".toList :: list :: rest) s =
      .returned () { s with domainBitFlags := domainListToBitMask list } := by
  rw [pluginCommand, if_pos rfl, modify_apply]

theorem Configured.flags {domainList : Str} {s : FilterState} (h : Configured domainList s) :
    s.domainBitFlags = domainListToBitMask domainList := by
  cases h with
  | opened => rfl
  | updated ran =>
      rw [pluginCommand_updateMask] at ran
      cases ran
      rfl

theorem printMask_inTable {fuel : Nat} (enough : 32 < fuel) {s : FilterState}
    (inTable : ∀ i, s.domainBitFlags.getLsbD i = true → i < domainsNames.length) :
    printMask fuel s = .returned () { s with
      stdout := s.stdout ++ "domain_mask:".toList ++
        maskText (BitSet.membersFrom s.domainBitFlags 0) ++ ['\n'] } := by
  obtain ⟨fuel, rfl⟩ := Nat.exists_eq_add_one_of_ne_zero (Nat.ne_zero_of_lt enough)
  rw [printMask, printf_bind, get_bind, bind_of_returned
    (printMaskLoop_inTable (BitSet.startsAt_zero _) inTable (Nat.le_of_lt_succ enough))]
  rfl

theorem printMask_outOfTable {fuel i : Nat} {s t : FilterState}
    (mem : s.domainBitFlags.getLsbD i = true) (outside : domainsNames.length ≤ i) :
    printMask fuel s ≠ .returned () t := by
  intro ran
  rw [printMask, printf_bind, get_bind, bind_returned_iff] at ran
  obtain ⟨_, s', loop, -⟩ := ran
  exact printMaskLoop_outOfTable mem outside (Nat.zero_le i) loop

/-- The mask survives unless `ALL` is among the domains. -/
theorem mask_survives_iff {domainList : Str} {s : FilterState} (h : Configured domainList s) :
    MaskSurvives s ↔ "ALL".toList ∉ domainTokens domainList := by
  rw [← inTable_iff, ← h.flags]
  constructor
  · rintro ⟨list, printed, -⟩ i mem
    refine Nat.lt_of_not_le fun outside => ?_
    have ran := printed 33 (Nat.lt_succ_self 32)
    rw [pluginCommand_printMask] at ran
    exact printMask_outOfTable mem outside ran
  · intro inTable
    refine ⟨maskText (BitSet.membersFrom s.domainBitFlags 0), fun fuel enough => ?_, ?_⟩
    · rw [pluginCommand_printMask, printMask_inTable enough inTable]
    · intro fuel t
      rw [pluginCommand_updateMask, domainListToBitMask_maskText inTable]

theorem mask_survives_iff_two : MaskSurvives (openPlugin "SYNCS,LINKS".toList) :=
  (mask_survives_iff .opened).mpr (by decide)

theorem mask_lost_by_all : ¬ ∀ domainList s, Configured domainList s → MaskSurvives s := by
  intro survives
  obtain ⟨list, printed, -⟩ := survives "ALL".toList _ .opened
  have ran := printed 33 (by decide)
  have set : (openPlugin "ALL".toList).domainBitFlags.getLsbD 31 = true := by decide
  rw [pluginCommand_printMask] at ran
  exact printMask_outOfTable set (by decide) ran

end IoMonitor.Listener
