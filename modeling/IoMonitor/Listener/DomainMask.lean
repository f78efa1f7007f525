import IoMonitor.Listener.PrintMask
import Mathlib.Data.List.Nodup

/-!
`domain_list_to_bit_mask` as it is written: the calls of `strtok_r` on their own
saved pointer, and for each token the search through `domains_names`.

It computes the union of its tokens (`domain_mask_union`), so the mask of two lists
with a comma between them is that of both, and depends on the set of the tokens
alone.
-/

namespace IoMonitor.Listener

open CString

def END_DOMAINS : Nat := 19

/-- The search, with as many entries left as the first argument says. -/
def searchName (token : Str) (bitMask : BitVec 32) : Nat → Nat → BitVec 32
  | 0, _ => bitMask
  | left + 1, i =>
      if domainsNames[i]? = some token then bitMask ||| 1#32 <<< i
      else searchName token bitMask left (i + 1)

/-- The body of the loop over the tokens. -/
def addToken (bitMask : BitVec 32) (token : Str) : BitVec 32 :=
  let bitMask := searchName token bitMask END_DOMAINS 0
  if token = "ALL".toList then bitMask ||| ~~~0#32 else bitMask

/-- The loop; `none` where the fuel runs out. -/
def tokenLoop : Nat → BitVec 32 → Str → Option (BitVec 32)
  | 0, _, _ => none
  | fuel + 1, bitMask, rest =>
      match strtokCall [','] rest with
      | none => some bitMask
      | some (token, rest) => tokenLoop fuel (addToken bitMask token) rest

/-! ### The loops are the fold over the tokens -/

theorem searchName_eq (token : Str) (bitMask : BitVec 32) (left i : Nat)
    (table : i + left = domainsNames.length) :
    searchName token bitMask left i =
      match (domainsNames.drop i).findIdx? (· = token) with
      | some j => bitMask ||| 1#32 <<< (i + j)
      | none => bitMask := by
  induction left generalizing i with
  | zero => rw [searchName, List.drop_of_length_le (by omega)]; rfl
  | succ left ih =>
      have inside : i < domainsNames.length := by omega
      rw [searchName, ih (i + 1) (by omega), List.drop_eq_getElem_cons inside,
        List.findIdx?_cons, List.getElem?_eq_getElem inside]
      by_cases found : domainsNames[i] = token
      · simp [found]
      · simp only [Option.some.injEq, found, if_false, decide_false, Bool.false_eq_true]
        cases (domainsNames.drop (i + 1)).findIdx? (· = token) with
        | none => rfl
        | some j => simp [Nat.add_comm 1 j, Nat.add_assoc]

theorem addToken_eq (bitMask : BitVec 32) (token : Str) :
    addToken bitMask token = addDomain bitMask token := by
  unfold addToken addDomain
  rw [searchName_eq token bitMask END_DOMAINS 0 rfl, List.drop_zero]
  cases domainsNames.findIdx? (· = token) with
  | none => rfl
  | some i => simp only [Nat.zero_add]

theorem tokenLoop_eq {fuel : Nat} {rest : Str} (enough : rest.length < fuel)
    (bitMask : BitVec 32) :
    tokenLoop fuel bitMask rest = some ((strtok [','] [] rest).foldl addDomain bitMask) := by
  induction fuel generalizing rest bitMask with
  | zero => exact absurd enough (Nat.not_lt_zero _)
  | succ fuel ih =>
      rw [tokenLoop, strtok_of_call]
      cases call : strtokCall [','] rest with
      | none => rfl
      | some found =>
          obtain ⟨token, behind⟩ := found
          have shorter := strtokCall_length call
          dsimp only
          rw [ih (by omega), addToken_eq, List.foldl_cons]

/-! ### The union of the tokens -/

/-- The non-empty runs of characters other than the comma. -/
def runs (domainList : Str) : List Str := (domainList.splitOn ',').filter (· ≠ [])

theorem domainTokens_eq_runs (domainList : Str) : domainTokens domainList = runs domainList := by
  rw [domainTokens, strtok_eq_splitOn, runs]
  cases domainList.splitOn ',' <;> rfl

theorem runs_append (a b : Str) : runs (a ++ ',' :: b) = runs a ++ runs b := by
  rw [runs, List.splitOn_append_cons_self, List.filter_append]
  rfl

theorem domainsNames_nodup : domainsNames.Nodup := by decide

/-- The search finds the entry that is the token. -/
theorem findIdx_name_iff {token : Str} {i : Nat} :
    domainsNames.findIdx? (· = token) = some i ↔ domainsNames[i]? = some token := by
  rw [List.findIdx?_eq_some_iff_getElem, List.getElem?_eq_some_iff]
  constructor
  · rintro ⟨inside, found, -⟩
    exact ⟨inside, of_decide_eq_true found⟩
  · rintro ⟨inside, found⟩
    refine ⟨inside, decide_eq_true found, fun j before same => ?_⟩
    have equal := (List.Nodup.getElem_inj_iff domainsNames_nodup).mp
      ((of_decide_eq_true same).trans found.symm)
    omega

theorem mem_mask_iff {domainList : Str} {i : Nat} :
    (domainListToBitMask domainList).getLsbD i = true ↔ ∃ token ∈ runs domainList,
      domainsNames[i]? = some token ∨ (token = "ALL".toList ∧ i < 32) := by
  simp only [mem_domainListToBitMask, domainTokens_eq_runs, findIdx_name_iff]

/-- **The mask of a list of domains.** The function ends, with all bits where a token is
`ALL`, and else with the bits whose names are tokens. -/
structure UnionOfTokens (domainList : Str) : Prop where
  ends : ∀ fuel, domainList.length < fuel →
    tokenLoop fuel 0 domainList = some (domainListToBitMask domainList)
  all : "ALL".toList ∈ runs domainList → domainListToBitMask domainList = ~~~0#32
  names : "ALL".toList ∉ runs domainList → ∀ i,
    (domainListToBitMask domainList).getLsbD i = true ↔
      i < END_DOMAINS ∧ ∃ token ∈ runs domainList, domainsNames[i]? = some token

theorem unionOfTokens (domainList : Str) : UnionOfTokens domainList where
  ends fuel enough := tokenLoop_eq enough 0
  all mem := by
    refine BitSet.ext_mem fun i => ?_
    rw [mem_mask_iff, BitVec.getLsbD_not, BitVec.getLsbD_zero, Bool.not_false, Bool.and_true,
      decide_eq_true_iff]
    constructor
    · rintro ⟨token, -, named | ⟨-, inside⟩⟩
      · have inTable := (List.getElem?_eq_some_iff.mp named).1
        exact Nat.lt_trans inTable (by decide)
      · exact inside
    · exact fun inside => ⟨_, mem, .inr ⟨rfl, inside⟩⟩
  names noAll i := by
    rw [mem_mask_iff]
    constructor
    · rintro ⟨token, mem, named | ⟨rfl, -⟩⟩
      · exact ⟨(List.getElem?_eq_some_iff.mp named).1, token, mem, named⟩
      · exact absurd mem noAll
    · rintro ⟨-, token, mem, named⟩
      exact ⟨token, mem, .inl named⟩

theorem mask_append (a b : Str) :
    domainListToBitMask (a ++ ',' :: b) = domainListToBitMask a ||| domainListToBitMask b := by
  refine BitSet.ext_mem fun i => ?_
  rw [BitVec.getLsbD_or, Bool.or_eq_true, mem_mask_iff, mem_mask_iff, mem_mask_iff, runs_append]
  simp only [List.mem_append, or_and_right, exists_or]

theorem mask_congr {a b : Str} (same : ∀ token, token ∈ runs a ↔ token ∈ runs b) :
    domainListToBitMask a = domainListToBitMask b := by
  refine BitSet.ext_mem fun i => ?_
  rw [mem_mask_iff, mem_mask_iff]
  simp only [same]

/-- **`domain_list_to_bit_mask`.** The union of the tokens, for every list; with a comma in
between the masks are joined, and order, repetition and empty tokens do not matter. -/
theorem domain_mask_union :
    (∀ domainList, UnionOfTokens domainList) ∧
      (∀ a b, domainListToBitMask (a ++ ',' :: b) =
        domainListToBitMask a ||| domainListToBitMask b) ∧
      ∀ a b, (∀ token, token ∈ runs a ↔ token ∈ runs b) →
        domainListToBitMask a = domainListToBitMask b :=
  ⟨unionOfTokens, mask_append, fun _ _ => mask_congr⟩

theorem domain_mask_union_reordered :
    domainListToBitMask "LINKS,,HTTP".toList =
      domainListToBitMask ",HTTP,LINKS,HTTP".toList := by
  refine domain_mask_union.2.2 _ _ fun token => ?_
  have first : runs "LINKS,,HTTP".toList = ["LINKS".toList, "HTTP".toList] := by decide
  have second : runs ",HTTP,LINKS,HTTP".toList =
      ["HTTP".toList, "LINKS".toList, "HTTP".toList] := by decide
  rw [first, second]
  simp only [List.mem_cons, List.not_mem_nil, or_false]
  tauto

end IoMonitor.Listener
