import IoMonitor.Lib.CString
import Mathlib.Algebra.Group.Nat.Defs

/-!
A `double` in a `float`, and a `float` in text.

`Float` and `Float32` are the IEEE formats. What is missing here is the conversion of one
to the other, and the text that `%f` makes of a number.
-/

namespace Floats

open CString
open Float.Model (UnpackedFloat Format)

/-- A `double` as a `float`: the nearest, and of two the even one. -/
def narrow (x : Float) : Float32 :=
  .ofModel <| .pack <|
    match x.toModel.unpack with
    | .finite sign mantissa exponent _ =>
        UnpackedFloat.round Format.binary32 sign mantissa exponent
    | special => special

/-- The whole number nearest to `mantissa * 2 ^ exponent`, of two the even one. -/
def nearest (mantissa : Nat) : Int → Nat
  | .ofNat e => mantissa * 2 ^ e
  | .negSucc e =>
      let unit := 2 ^ (e + 1)
      let whole := mantissa / unit
      let rest := mantissa % unit
      if 2 * rest < unit ∨ 2 * rest = unit ∧ whole % 2 = 0 then whole else whole + 1

def signText : UnpackedFloat.Sign → Str
  | .positive => []
  | .negative => ['-']

/-- What `%.f` prints with so many places behind the point; `%f` has six. -/
def printFixed (places : Nat) (x : Float32) : Str :=
  match x.toModel.unpack with
  | .notANumber => "nan".toList
  | .infinity sign => signText sign ++ "inf".toList
  | .zero sign => signText sign ++ '0' :: '.' :: List.replicate places '0'
  | .finite sign mantissa exponent _ =>
      let scaled := nearest (mantissa * 10 ^ places) exponent
      signText sign ++ Nat.toDigits 10 (scaled / 10 ^ places) ++
        '.' :: (Nat.toDigits 10 (scaled % 10 ^ places)).leftpad places '0'

example : printFixed 4 (narrow 1234.5) = "1234.5000".toList := by decide +kernel

/-- 16777217 is no `float`. -/
example : printFixed 6 (narrow (-16777217)) = "-16777216.000000".toList := by decide +kernel

theorem mem_signText {sign : UnpackedFloat.Sign} {c : Char} (h : c ∈ signText sign) : c = '-' := by
  cases sign with
  | positive => cases h
  | negative => exact List.mem_singleton.mp h

theorem mem_printFixed {places : Nat} {x : Float32} {c : Char} (h : c ∈ printFixed places x) :
    c.isDigit ∨ c ∈ "-.infa".toList := by
  have digits : ∀ {n : Nat}, c ∈ Nat.toDigits 10 n → c.isDigit = true :=
    fun mem => Nat.isDigit_of_mem_toDigits (by decide) (by decide) mem
  have signs : ∀ {sign}, c ∈ signText sign → c ∈ "-.infa".toList := fun mem =>
    mem_signText mem ▸ by decide
  unfold printFixed at h
  split at h
  · exact .inr ((show "nan".toList ⊆ "-.infa".toList by decide) h)
  · rcases List.mem_append.mp h with sign | letter
    · exact .inr (signs sign)
    · exact .inr ((show "inf".toList ⊆ "-.infa".toList by decide) letter)
  · rcases List.mem_append.mp h with sign | zero
    · exact .inr (signs sign)
    · rcases List.mem_cons.mp zero with rfl | zero
      · exact .inl (by decide)
      · rcases List.mem_cons.mp zero with rfl | zero
        · exact .inr (by decide)
        · exact .inl (List.eq_of_mem_replicate zero ▸ by decide)
  · rcases List.mem_append.mp h with front | fraction
    · rcases List.mem_append.mp front with sign | whole
      · exact .inr (signs sign)
      · exact .inl (digits whole)
    · rcases List.mem_cons.mp fraction with rfl | fraction
      · exact .inr (by decide)
      · rcases List.mem_append.mp fraction with padding | digit
        · exact .inl (List.eq_of_mem_replicate padding ▸ by decide)
        · exact .inl (digits digit)

theorem notMem_printFixed (places : Nat) (x : Float32) {c : Char} (h : ¬ c.isDigit)
    (h' : c ∉ "-.infa".toList) : c ∉ printFixed places x :=
  fun mem => (mem_printFixed mem).elim h h'

/-- It has a point, or is a word. -/
theorem printFixed_marked (places : Nat) (x : Float32) :
    ∃ c ∈ printFixed places x, ¬ (c.isDigit ∨ c = '-') := by
  unfold printFixed
  split
  · exact ⟨'n', by decide, by decide⟩
  · exact ⟨'i', List.mem_append_right _ (by decide), by decide⟩
  · exact ⟨'.', by simp, by decide⟩
  · exact ⟨'.', by simp, by decide⟩

theorem printFixed_ne_nil (places : Nat) (x : Float32) : printFixed places x ≠ [] := by
  unfold printFixed
  split <;> simp

end Floats
