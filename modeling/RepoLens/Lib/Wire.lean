import Mathlib

/-!
Encodings of values into bytes that say themselves where they end.
-/

namespace Wire

variable {α β : Type}

structure Code (α : Type) where
  put : α → List UInt8
  get : List UInt8 → Option (α × List UInt8)
  back : ∀ a rest, get (put a ++ rest) = some (a, rest)

namespace Code

def getNat (bytes : List UInt8) : Option (Nat × List UInt8) :=
  match bytes.dropWhile (· != 10) with
  | [] => none
  | _ :: rest => some (Nat.ofDigits 10 ((bytes.takeWhile (· != 10)).map UInt8.toNat), rest)

theorem getNat_back (n : Nat) (rest : List UInt8) :
    getNat ((Nat.digits 10 n).map UInt8.ofNat ++ [10] ++ rest) = some (n, rest) := by
  have small : ∀ d ∈ Nat.digits 10 n, (UInt8.ofNat d).toNat = d ∧ d < 10 := by
    intro d member
    have bound := Nat.digits_lt_base (by decide) member
    exact ⟨UInt8.toNat_ofNat_of_lt' (by change d < 256; omega), bound⟩
  have inside : ∀ b ∈ (Nat.digits 10 n).map UInt8.ofNat, (b != 10) = true := by
    intro b member
    obtain ⟨d, digit, rfl⟩ := List.mem_map.mp member
    obtain ⟨size, bound⟩ := small d digit
    rw [bne_iff_ne]
    intro mark
    rw [mark] at size
    simp at size
    omega
  have digits : ((Nat.digits 10 n).map UInt8.ofNat).map UInt8.toNat = Nat.digits 10 n := by
    rw [List.map_map]
    exact (List.map_congr_left fun d member => (small d member).1).trans (List.map_id _)
  rw [getNat, List.append_assoc, List.dropWhile_append_of_pos inside,
    List.takeWhile_append_of_pos inside, List.map_append, digits]
  simp [Nat.ofDigits_digits]

/-- The decimal digits of a number and a byte that is none. -/
def nat : Code Nat where
  put n := (Nat.digits 10 n).map UInt8.ofNat ++ [10]
  get := getNat
  back := getNat_back

def pair (one : Code α) (two : Code β) : Code (α × β) where
  put p := one.put p.1 ++ two.put p.2
  get bytes := do
    let (a, bytes) ← one.get bytes
    let (b, bytes) ← two.get bytes
    some ((a, b), bytes)
  back p rest := by simp [one.back, two.back]

def getList (each : Code α) : Nat → List UInt8 → Option (List α × List UInt8)
  | 0, bytes => some ([], bytes)
  | count + 1, bytes => do
    let (a, bytes) ← each.get bytes
    let (as, bytes) ← getList each count bytes
    some (a :: as, bytes)

theorem getList_back (each : Code α) (as : List α) (rest : List UInt8) :
    getList each as.length (as.flatMap each.put ++ rest) = some (as, rest) := by
  induction as with
  | nil => rfl
  | cons a as ih => simp [getList, each.back, ih]

def list (each : Code α) : Code (List α) where
  put as := nat.put as.length ++ as.flatMap each.put
  get bytes := do
    let (count, bytes) ← nat.get bytes
    getList each count bytes
  back as rest := by simp [nat.back, getList_back]

/-- A value is sent as another one that it can be made of again. -/
def via (code : Code β) (sent : α → β) (made : β → α) (same : ∀ a, made (sent a) = a) : Code α where
  put a := code.put (sent a)
  get bytes := (code.get bytes).map fun (b, rest) => (made b, rest)
  back a rest := by simp [code.back, same]

theorem int_same (n : Int) : (n.toNat : Int) - ((-n).toNat : Int) = n := by
  omega

def int : Code Int :=
  (pair nat nat).via (fun n => (n.toNat, (-n).toNat)) (fun (above, below) => above - below) int_same

theorem string_same (s : String) :
    String.ofList ((s.toList.map Char.toNat).map Char.ofNat) = s := by
  simp [Function.comp_def, Char.ofNat_toNat]

def string : Code String :=
  (list nat).via (fun s => s.toList.map Char.toNat)
    (fun codes => String.ofList (codes.map Char.ofNat)) string_same

def read (code : Code α) (bytes : List UInt8) : Option α := (code.get bytes).map Prod.fst

theorem read_put (code : Code α) (a : α) : code.read (code.put a) = some a := by
  have back := code.back a []
  rw [List.append_nil] at back
  rw [read, back]
  rfl

end Code

end Wire
