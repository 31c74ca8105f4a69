import Mathlib.Data.List.Infix
import HideServer.Access.Promises
import HideServer.Data.Number
import HideServer.Provisioner.Preemption

/-!
# Quantities of CPU

Kubernetes writes a quantity of CPU in cores or, with an `m`, in thousandths. The provisioner has it
parsed by the Kubernetes library. The workspace service looks for the `m` of a container's request,
but not of the node: `parseInt` reads `3920m` as 3920 cores.
-/

namespace HideServer.Access.Quantities

open Data Provisioner List Number

/-- White space and line terminators of JavaScript. -/
def isSpace (char : Char) : Bool :=
  [0x9, 0xa, 0xb, 0xc, 0xd, 0x20, 0xa0, 0x1680, 0x2028, 0x2029, 0x202f, 0x205f, 0x3000, 0xfeff].contains char.toNat ||
    (0x2000 ≤ char.toNat && char.toNat ≤ 0x200a)

def digitOf (radix : Nat) (char : Char) : Option Nat :=
  let value :=
    if char.isDigit then char.toNat - '0'.toNat
    else if char.isLower then char.toNat - 'a'.toNat + 10
    else if char.isUpper then char.toNat - 'A'.toNat + 10
    else 36
  if value < radix then some value else none

/-- The digits a text starts with. -/
def leadingDigits (radix : Nat) : List Char → List Nat
  | [] => []
  | char :: rest =>
    match digitOf radix char with
    | some digit => digit :: leadingDigits radix rest
    | none => []

/-- The number that the leading digits make; what follows them does not matter. -/
def readDigits (negative : Bool) (radix : Nat) (text : List Char) : Number :=
  let digits := leadingDigits radix text
  let value := digits.foldl (fun value digit => radix * value + digit) 0
  if digits = [] then .nan else .ofInt (if negative then -value else value)

/-- Without a radix, `0x` makes it 16. -/
def readUnsigned (negative : Bool) (radix : Option Nat) (text : List Char) : Number :=
  match text with
  | '0' :: 'x' :: rest | '0' :: 'X' :: rest =>
    if radix.getD 16 = 16 then readDigits negative 16 rest else readDigits negative (radix.getD 10) text
  | _ => readDigits negative (radix.getD 10) text

def parseInt (radix : Option Nat) (text : List Char) : Number :=
  match text.dropWhile isSpace with
  | '-' :: rest => readUnsigned true radix rest
  | '+' :: rest => readUnsigned false radix rest
  | rest => readUnsigned false radix rest

/-- What is read of a pod that is not one of a workspace. -/
structure SysPod where
  phase : Phase
  cpuRequests : List (Option String)
  deriving DecidableEq, Repr

/-- What is not a number of cores other than zero is read once more, without its `m`. -/
def allocatableCpu (cpu : Option String) : Except String Number :=
  let text := (cpu.getD "").toList
  let cores := (parseInt none text).mul (.int 1000)
  let allocatableCpu := if cores.truthy then cores else parseInt none (text.erase 'm')
  if !allocatableCpu.truthy then .error "UNKNOWN" else .ok allocatableCpu

def requestCpu (cpuReq : List Char) : Number :=
  if cpuReq.getLast? = some 'm' then parseInt (some 10) (cpuReq.erase 'm')
  else (parseInt (some 10) cpuReq).mul (.int 1000)

def addContainer (requestedSysCpu : Number) : Option String → Number
  | none => requestedSysCpu
  | some cpuReq => if cpuReq = "" then requestedSysCpu else requestedSysCpu.add (requestCpu cpuReq.toList)

/-- Only running pods count. -/
def addPod (requestedSysCpu : Number) (pod : SysPod) : Number :=
  if pod.phase ≠ .running then requestedSysCpu else pod.cpuRequests.foldl addContainer requestedSysCpu

/-- The sum over all pods, as the service computes it. -/
def requestedSysCpu (pods : List SysPod) : Number := pods.foldl addPod (.int 0)

/-- A setting that is unset takes the one default, and one that is no number the other. -/
def setting (value : Option String) (unset : String) (invalid : Int) : Number :=
  let number := parseInt none (value.getD unset).toList
  if number = .nan then .int invalid else number

/-- `canProvision`, with the two counts and what Kubernetes answers; `none` if a request fails. -/
def canProvision (simulate workspaceCpuRequest idleThreshold : Option String)
    (totalDedicatedCount unusedAccessCodeCount : Nat) (nodes : Option (List (Option String)))
    (pods : Option (List SysPod)) : Except String Bool := do
  if simulate.getD "" ≠ "" then return ((simulate.getD "").splitOn ",")[1]? = some "true"
  match nodes, pods with
  | some (cpu :: _), some pods =>
    let allocatableCpu ← allocatableCpu cpu
    let wsCpu := setting workspaceCpuRequest "350" 200
    let idleThresholdCpu := setting idleThreshold "350" 350
    let count := ((ofInt totalDedicatedCount).add (.ofInt unusedAccessCodeCount)).add (.int 1)
    return ((count.mul wsCpu).add (requestedSysCpu pods)).lt (allocatableCpu.sub idleThresholdCpu)
  | _, _ => .error "UNKNOWN"

/-- The two forms in which Kubernetes writes a quantity of CPU. -/
inductive Quantity where
  | cores (n : Nat)
  | millis (n : Nat)
  deriving DecidableEq, Repr

namespace Quantity

/-- The canonical form of a quantity. -/
def text : Quantity → String
  | .cores n => toString n
  | .millis n => toString n ++ "m"

/-- The millicores of a quantity. -/
def value : Quantity → Nat
  | .cores n => 1000 * n
  | .millis n => n

/-- `MilliValue`, if it has no overflow. -/
def milliValue (quantity : Quantity) : Option Int := int64 quantity.value

end Quantity

/-- A pod with its requests as quantities. -/
structure Listed where
  phase : Phase
  requests : List (Option Quantity)
  deriving DecidableEq, Repr

namespace Listed

def sysPod (pod : Listed) : SysPod := ⟨pod.phase, pod.requests.map (Option.map Quantity.text)⟩

def pod (pod : Listed) : Pod :=
  ⟨"", pod.phase, none, pod.requests.map (Option.map fun quantity => (quantity.value : Int)), 0⟩

def single (quantity : Quantity) : Listed := ⟨.running, [some quantity]⟩

end Listed

/-- The requests that both services add up. -/
def counted (pods : List Listed) : List Quantity :=
  (pods.filter fun pod => pod.phase = .running).flatMap fun pod => pod.requests.filterMap id

/-- The two services get the same total. -/
def SameTotals (pods : List Listed) : Prop :=
  requestedSysCpu (pods.map Listed.sysPod) = .int ((pods.map Listed.pod).foldl (Provisioner.addPod wrap) 0)

/-- The two services read the node and every container alike, and have the same total of the containers, after each of
them and in the end. -/
structure Alike (node : Quantity) (pods : List Listed) : Prop where
  node : ∃ value, node.milliValue = some value ∧ allocatableCpu (some node.text) = .ok (.int value)
  containers : ∀ quantity ∈ counted pods, ∃ value,
    quantity.milliValue = some value ∧ requestCpu quantity.text.toList = .int value
  along : ∀ front ∈ (counted pods).inits, SameTotals (front.map Listed.single)
  total : SameTotals pods

/-- A number for which neither 64 bits nor the digits of a double are too few. -/
def Held (n : Nat) : Prop := n < 2 ^ 63 ∧ Exact 53 n
  deriving Decidable

/-- The node is given in cores, and all numbers are small enough or round. -/
def Plain (node : Quantity) (pods : List Listed) : Prop :=
  (∃ n, node = .cores n ∧ 0 < n ∧ Held (1000 * n)) ∧ (∀ quantity ∈ counted pods, Held quantity.value) ∧
    ∀ front ∈ (counted pods).inits, Held (front.map Quantity.value).sum

variable {char : Char}

theorem digit_bounds (h : char.isDigit = true) : 48 ≤ char.toNat ∧ char.toNat ≤ 57 := by
  simp only [Char.isDigit, Bool.and_eq_true, decide_eq_true_eq] at h
  exact h

theorem digitOf_digit (h : char.isDigit = true) : digitOf 10 char = some (char.toNat - '0'.toNat) := by
  have hbounds := digit_bounds h
  have hzero : '0'.toNat = 48 := rfl
  simp only [digitOf, h, if_true]
  rw [if_pos (by omega)]

theorem isSpace_digit (h : char.isDigit = true) : isSpace char = false := by
  have hbounds := digit_bounds h
  simp [isSpace]
  omega

theorem leadingDigits_append {digits rest : List Char} (hdigits : ∀ char ∈ digits, char.isDigit = true)
    (hrest : leadingDigits 10 rest = []) :
    leadingDigits 10 (digits ++ rest) = digits.map fun char => char.toNat - '0'.toNat := by
  induction digits with
  | nil => exact hrest
  | cons char digits ih =>
    obtain ⟨hchar, hdigits⟩ := forall_mem_cons.1 hdigits
    rw [cons_append, leadingDigits, digitOf_digit hchar]
    simp only [ih hdigits, map_cons]

theorem parseInt_eq_readDigits (radix : Option Nat) {first : Char} {others : List Char} (hfirst : first.isDigit = true)
    (hothers : ∀ char ∈ others, char.isDigit = true ∨ char = 'm') :
    parseInt radix (first :: others) = readDigits false (radix.getD 10) (first :: others) := by
  rw [parseInt, dropWhile_cons_of_neg (by simp [isSpace_digit hfirst])]
  split
  case h_1 heq =>
    obtain ⟨rfl, -⟩ := cons.inj heq
    exact absurd hfirst (by decide)
  case h_2 heq =>
    obtain ⟨rfl, -⟩ := cons.inj heq
    exact absurd hfirst (by decide)
  case h_3 =>
    unfold readUnsigned
    split
    case h_1 heq =>
      obtain ⟨-, rfl⟩ := cons.inj heq
      exact absurd (hothers 'x' mem_cons_self) (by decide)
    case h_2 heq =>
      obtain ⟨-, rfl⟩ := cons.inj heq
      exact absurd (hothers 'X' mem_cons_self) (by decide)
    case h_3 => rfl

variable (n : Nat)

theorem isDigit_toDigits (h : char ∈ Nat.toDigits 10 n) : char.isDigit = true :=
  Nat.isDigit_of_mem_toDigits (by decide) (by decide) h

theorem readDigits_toDigits {rest : List Char} (hrest : leadingDigits 10 rest = []) :
    readDigits false 10 (Nat.toDigits 10 n ++ rest) = .ofInt n := by
  have hvalue : Nat.ofDigitChars 10 (Nat.toDigits 10 n) 0 = n := Nat.ofDigitChars_ten_toDigits
  rw [Nat.ofDigitChars_eq_foldl] at hvalue
  simp only [readDigits, leadingDigits_append (fun _ => isDigit_toDigits n) hrest, map_eq_nil_iff,
    Nat.toDigits_ne_nil, if_false, foldl_map, hvalue, Bool.false_eq_true]

theorem parseInt_toDigits (radix : Option Nat) (hradix : radix.getD 10 = 10) {rest : List Char}
    (hrest : rest = [] ∨ rest = ['m']) : parseInt radix (Nat.toDigits 10 n ++ rest) = .ofInt n := by
  have hchars : ∀ char ∈ Nat.toDigits 10 n ++ rest, char.isDigit = true ∨ char = 'm' := by
    intro char hchar
    rcases mem_append.1 hchar with hchar | hchar
    · exact .inl (isDigit_toDigits n hchar)
    · rcases hrest with rfl | rfl
      · cases hchar
      · exact .inr (mem_singleton.1 hchar)
  have hread : readDigits false 10 (Nat.toDigits 10 n ++ rest) = .ofInt n := by
    refine readDigits_toDigits n ?_
    rcases hrest with rfl | rfl <;> decide
  obtain ⟨first, others, htext⟩ := exists_cons_of_ne_nil (Nat.toDigits_ne_nil (n := n) (b := 10))
  have hfirst : first.isDigit = true := isDigit_toDigits n (htext ▸ mem_cons_self)
  rw [htext, cons_append] at hchars hread ⊢
  rw [parseInt_eq_readDigits radix hfirst (forall_mem_cons.1 hchars).2, hradix]
  exact hread

theorem toList_cores : (Quantity.cores n).text.toList = Nat.toDigits 10 n := by
  rw [Quantity.text, Nat.toString_eq_ofList_toDigits, String.toList_ofList]

theorem toList_millis : (Quantity.millis n).text.toList = Nat.toDigits 10 n ++ ['m'] := by
  rw [Quantity.text, Nat.toString_eq_ofList_toDigits, String.toList_append, String.toList_ofList]
  rfl

theorem m_notMem_toDigits : 'm' ∉ Nat.toDigits 10 n := by
  intro hmem
  exact absurd (isDigit_toDigits n hmem) (by decide)

theorem erase_toDigits : (Nat.toDigits 10 n ++ ['m']).erase 'm' = Nat.toDigits 10 n := by
  rw [erase_append_right _ (m_notMem_toDigits n)]
  exact append_nil _

theorem requestCpu_cores : requestCpu (Quantity.cores n).text.toList = (ofInt n).mul (.int 1000) := by
  have hlast : (Nat.toDigits 10 n).getLast? ≠ some 'm' := fun hlast => m_notMem_toDigits n (mem_of_getLast? hlast)
  have hread := parseInt_toDigits n (some 10) rfl (.inl rfl)
  rw [append_nil] at hread
  rw [toList_cores, requestCpu, if_neg hlast, hread]

theorem requestCpu_millis : requestCpu (Quantity.millis n).text.toList = .ofInt n := by
  have hread := parseInt_toDigits n (some 10) rfl (.inl rfl)
  rw [append_nil] at hread
  rw [toList_millis, requestCpu, if_pos getLast?_concat, erase_toDigits, hread]

theorem mul_thousand : (ofInt n).mul (.int 1000) =
    if 1024 ≤ (roundTo 53 n).log2 then .infinite false else .ofInt (1000 * roundTo 53 n : Nat) := by
  rw [ofInt_natCast]
  split
  · rfl
  · rw [mul, Nat.cast_mul, mul_comm]
    rfl

theorem le_two_mul_round (n : Nat) : n ≤ 2 * roundTo 53 n := le_two_mul_roundTo (by decide) n

theorem mul_thousand_truthy (h : n ≠ 0) : ((ofInt n).mul (.int 1000)).truthy = true := by
  have hle := le_two_mul_round n
  rw [mul_thousand]
  split
  · rfl
  · rw [ofInt_truthy, decide_eq_true_eq]
    omega

theorem log2_lt_of_lt {n : Nat} (h : n < 2 ^ 63) : n.log2 < 1024 := by
  by_cases hzero : n = 0
  · rw [hzero]
    decide
  · have hlog : n.log2 < 63 := (Nat.log2_lt hzero).2 h
    omega

theorem ofInt_eq_iff {n : Nat} (h : n < 2 ^ 63) : ofInt n = .int n ↔ Exact 53 n :=
  ofInt_eq_int_iff (log2_lt_of_lt h)

theorem mul_thousand_eq_iff {n : Nat} (h : 1000 * n < 2 ^ 63) :
    (ofInt n).mul (.int 1000) = .int (1000 * n : Nat) ↔ Exact 53 (1000 * n) := by
  constructor
  · intro heq
    rw [mul_thousand] at heq
    split at heq
    · cases heq
    · rw [ofInt_natCast] at heq
      split at heq
      · cases heq
      · rw [int.injEq, Nat.cast_inj] at heq
        exact heq ▸ exact_roundTo (by decide) _
  · intro hexact
    have hround : roundTo 53 n = n := roundTo_eq_self_iff.2 (hexact.of_mul (by decide))
    have hlog : n.log2 < 1024 := log2_lt_of_lt (by omega)
    rw [mul_thousand, hround, if_neg (by omega)]
    exact (ofInt_eq_iff h).2 hexact

theorem mul_thousand_ne (h : n ≠ 0) : (ofInt n).mul (.int 1000) ≠ .int n := by
  intro heq
  rw [mul_thousand] at heq
  split at heq
  · cases heq
  · rw [ofInt_natCast] at heq
    split at heq
    · cases heq
    · rw [int.injEq, Nat.cast_inj] at heq
      have hcores := le_two_mul_round n
      have hmillis := le_two_mul_round (1000 * roundTo 53 n)
      omega

variable {quantity : Quantity}

theorem milliValue_eq_some {value : Int} :
    quantity.milliValue = some value ↔ quantity.value < 2 ^ 63 ∧ value = quantity.value := by
  rw [Quantity.milliValue, int64]
  split
  · rw [Option.some.injEq, eq_comm]
    omega
  · simp only [reduceCtorEq, false_iff]
    omega

theorem exists_milliValue {P : Int → Prop} :
    (∃ value, quantity.milliValue = some value ∧ P value) ↔ quantity.value < 2 ^ 63 ∧ P quantity.value := by
  constructor
  · rintro ⟨value, hvalue, h⟩
    obtain ⟨hfits, rfl⟩ := milliValue_eq_some.1 hvalue
    exact ⟨hfits, h⟩
  · rintro ⟨hfits, h⟩
    exact ⟨quantity.value, milliValue_eq_some.2 ⟨hfits, rfl⟩, h⟩

theorem container_iff (quantity : Quantity) :
    (∃ value, quantity.milliValue = some value ∧ requestCpu quantity.text.toList = .int value) ↔
      Held quantity.value := by
  rw [exists_milliValue, Held]
  refine and_congr_right fun hfits => ?_
  cases quantity with
  | cores n =>
    rw [requestCpu_cores]
    exact mul_thousand_eq_iff hfits
  | millis n =>
    rw [requestCpu_millis]
    exact ofInt_eq_iff hfits

theorem allocatableCpu_eq {text : String} (hread : parseInt none text.toList = .ofInt n)
    (herased : parseInt none (text.toList.erase 'm') = .ofInt n) :
    allocatableCpu (some text) = if n = 0 then .error "UNKNOWN" else .ok ((ofInt n).mul (.int 1000)) := by
  by_cases hzero : n = 0
  · subst hzero
    simp only [allocatableCpu, Option.getD_some, hread, herased]
    rfl
  · simp [allocatableCpu, hread, mul_thousand_truthy n hzero, hzero]

theorem parseInt_plain : parseInt none (Nat.toDigits 10 n) = .ofInt n := by
  simpa using parseInt_toDigits n none rfl (.inl rfl)

theorem allocatableCpu_cores : allocatableCpu (some (Quantity.cores n).text) =
    if n = 0 then .error "UNKNOWN" else .ok ((ofInt n).mul (.int 1000)) := by
  refine allocatableCpu_eq n ?_ ?_
  · rw [toList_cores, parseInt_plain]
  · rw [toList_cores, erase_of_not_mem (m_notMem_toDigits n), parseInt_plain]

theorem allocatableCpu_millis : allocatableCpu (some (Quantity.millis n).text) =
    if n = 0 then .error "UNKNOWN" else .ok ((ofInt n).mul (.int 1000)) := by
  refine allocatableCpu_eq n ?_ ?_
  · rw [toList_millis, parseInt_toDigits n none rfl (.inr rfl)]
  · rw [toList_millis, erase_toDigits, parseInt_plain]

theorem node_iff (node : Quantity) :
    (∃ value, node.milliValue = some value ∧ allocatableCpu (some node.text) = .ok (.int value)) ↔
      ∃ n, node = .cores n ∧ 0 < n ∧ Held (1000 * n) := by
  rw [exists_milliValue]
  cases node with
  | cores n =>
    rw [allocatableCpu_cores]
    by_cases hzero : n = 0
    · simp [hzero]
    · rw [if_neg hzero, Except.ok.injEq]
      constructor
      · rintro ⟨hfits, hread⟩
        exact ⟨n, rfl, Nat.pos_of_ne_zero hzero, hfits, (mul_thousand_eq_iff hfits).1 hread⟩
      · rintro ⟨m, hm, -, hfits, hexact⟩
        cases hm
        exact ⟨hfits, (mul_thousand_eq_iff hfits).2 hexact⟩
  | millis n =>
    rw [allocatableCpu_millis]
    by_cases hzero : n = 0
    · simp [hzero]
    · rw [if_neg hzero, Except.ok.injEq]
      constructor
      · rintro ⟨-, hread⟩
        exact absurd hread (mul_thousand_ne n hzero)
      · rintro ⟨m, hm, -⟩
        cases hm

theorem text_ne_empty (quantity : Quantity) : quantity.text ≠ "" := by
  intro hempty
  have hnil : quantity.text.toList = [] := by rw [hempty]; rfl
  cases quantity with
  | cores n => exact Nat.toDigits_ne_nil ((toList_cores n).symm.trans hnil)
  | millis n => exact append_ne_nil_of_right_ne_nil _ (by simp) ((toList_millis n).symm.trans hnil)

def sysTotal (start : Number) (quantities : List Quantity) : Number :=
  quantities.foldl (fun total quantity => total.add (requestCpu quantity.text.toList)) start

/-- The exact sum. -/
def valueTotal (quantities : List Quantity) : Nat := (quantities.map Quantity.value).sum

theorem foldl_addContainer (requests : List (Option Quantity)) (start : Number) :
    (requests.map (Option.map Quantity.text)).foldl addContainer start = sysTotal start (requests.filterMap id) := by
  induction requests generalizing start with
  | nil => rfl
  | cons request requests ih =>
    rw [map_cons, foldl_cons, ih]
    cases request with
    | none => rfl
    | some quantity =>
      have hadd : addContainer start (some quantity.text) = start.add (requestCpu quantity.text.toList) := by
        rw [addContainer, if_neg (text_ne_empty quantity)]
      rw [Option.map_some, hadd]
      rfl

theorem counted_cons (pod : Listed) (pods : List Listed) :
    counted (pod :: pods) = (if pod.phase = .running then pod.requests.filterMap id else []) ++ counted pods := by
  by_cases hrunning : pod.phase = .running <;> simp [counted, hrunning]

theorem foldl_addPod (pods : List Listed) (start : Number) :
    (pods.map Listed.sysPod).foldl addPod start = sysTotal start (counted pods) := by
  induction pods generalizing start with
  | nil => rfl
  | cons pod pods ih =>
    have hpod : addPod start pod.sysPod =
        sysTotal start (if pod.phase = .running then pod.requests.filterMap id else []) := by
      have hphase : pod.sysPod.phase = pod.phase := rfl
      by_cases hrunning : pod.phase = .running
      · rw [addPod, hphase, if_neg (not_not.2 hrunning), if_pos hrunning]
        exact foldl_addContainer pod.requests start
      · rw [addPod, hphase, if_pos hrunning, if_neg hrunning]
        rfl
    rw [map_cons, foldl_cons, ih, hpod, counted_cons, sysTotal, sysTotal, sysTotal, foldl_append]

theorem valueTotal_append (left right : List Quantity) :
    valueTotal (left ++ right) = valueTotal left + valueTotal right := by
  simp [valueTotal]

theorem requestedCpu_requests (requests : List (Option Quantity)) :
    ((requests.map (Option.map fun quantity => (quantity.value : Int))).map fun request => request.getD 0).sum =
      valueTotal (requests.filterMap id) := by
  induction requests with
  | nil => rfl
  | cons request requests ih =>
    cases request with
    | none => simpa using ih
    | some quantity =>
      rw [map_cons, map_cons, sum_cons, ih]
      exact (Nat.cast_add _ _).symm

theorem requestedCpu_pod (pods : List Listed) : requestedCpu (pods.map Listed.pod) = valueTotal (counted pods) := by
  induction pods with
  | nil => rfl
  | cons pod pods ih =>
    have hphase : pod.pod.phase = pod.phase := rfl
    have hpod : pod.pod.requestedCpu = valueTotal (pod.requests.filterMap id) := requestedCpu_requests pod.requests
    rw [map_cons, requestedCpu_cons, ih, counted_cons, valueTotal_append, hphase, hpod]
    by_cases hrunning : pod.phase = .running
    · simp [hrunning]
    · simp [hrunning, valueTotal]

theorem sameTotals_iff (pods : List Listed) :
    SameTotals pods ↔ sysTotal (.int 0) (counted pods) = .int (wrap (valueTotal (counted pods))) := by
  have hprovisioner := Provisioner.rounding_wrap.foldl_addPod (pods.map Listed.pod) 0
  rw [requestedCpu_pod, zero_add] at hprovisioner
  rw [SameTotals, requestedSysCpu, foldl_addPod]
  exact iff_of_eq (congrArg (fun total => _ = int total) hprovisioner)

theorem counted_single (quantities : List Quantity) : counted (quantities.map Listed.single) = quantities := by
  induction quantities with
  | nil => rfl
  | cons quantity quantities ih =>
    rw [map_cons, counted_cons, ih]
    rfl

theorem sysTotal_concat {front : List Quantity} (hquantity : Held quantity.value)
    (hfront : sysTotal (.int 0) front = .int (valueTotal front)) :
    sysTotal (.int 0) (front ++ [quantity]) = .ofInt (valueTotal (front ++ [quantity]) : Nat) := by
  have hread : requestCpu quantity.text.toList = .int quantity.value :=
    (exists_milliValue.1 ((container_iff quantity).2 hquantity)).2
  have hstep : sysTotal (.int 0) (front ++ [quantity]) =
      (sysTotal (.int 0) front).add (requestCpu quantity.text.toList) := by
    rw [sysTotal, foldl_append]
    rfl
  rw [hstep, hfront, hread, valueTotal_append, Nat.cast_add]
  rfl

theorem wrap_of_lt {n : Nat} (h : n < 2 ^ 63) : wrap n = n :=
  Fits.wrap_eq ⟨by omega, by omega⟩

theorem wrap_neg {n : Nat} (hlower : 2 ^ 63 ≤ n) (hupper : n < 2 ^ 64) : wrap n < 0 := by
  simp only [wrap, Int.bmod]
  omega

theorem next_iff {front : List Quantity} (hquantity : Held quantity.value)
    (hheld : Held (valueTotal front)) (hfront : sysTotal (.int 0) front = .int (valueTotal front)) :
    sysTotal (.int 0) (front ++ [quantity]) = .int (wrap (valueTotal (front ++ [quantity]))) ↔
      Held (valueTotal (front ++ [quantity])) := by
  rw [sysTotal_concat hquantity hfront]
  by_cases hfits : valueTotal (front ++ [quantity]) < 2 ^ 63
  · rw [wrap_of_lt hfits, ofInt_eq_iff hfits]
    exact ⟨fun hexact => ⟨hfits, hexact⟩, fun h => h.2⟩
  -- the `int64` has become negative, and the double has not
  · refine ⟨fun heq => ?_, fun h => absurd h.1 hfits⟩
    have hupper : valueTotal (front ++ [quantity]) < 2 ^ 64 := by
      have hlast : valueTotal [quantity] = quantity.value := sum_singleton
      rw [valueTotal_append, hlast]
      exact Nat.add_lt_add hheld.1 hquantity.1
    have hnegative := wrap_neg (Nat.le_of_not_lt hfits) hupper
    rw [ofInt_natCast] at heq
    split at heq
    · cases heq
    · rw [int.injEq] at heq
      omega

theorem forall_inits_concat {P : List Quantity → Prop} (quantities : List Quantity) (quantity : Quantity) :
    (∀ front ∈ (quantities ++ [quantity]).inits, P front) ↔
      (∀ front ∈ quantities.inits, P front) ∧ P (quantities ++ [quantity]) := by
  rw [inits_append]
  simp only [forall_mem_append]
  exact and_congr_right fun _ => forall_mem_singleton

theorem totals_iff {quantities : List Quantity} (hheld : ∀ quantity ∈ quantities, Held quantity.value) :
    (∀ front ∈ quantities.inits, sysTotal (.int 0) front = .int (wrap (valueTotal front))) ↔
      ∀ front ∈ quantities.inits, Held (valueTotal front) := by
  induction quantities using reverseRecOn with
  | nil =>
    have hzero : Held (valueTotal []) := by decide
    refine ⟨fun _ front hfront => ?_, fun _ front hfront => ?_⟩
    · rw [mem_singleton.1 hfront]
      exact hzero
    · rw [mem_singleton.1 hfront]
      rfl
  | append_singleton quantities quantity ih =>
    obtain ⟨hquantities, hquantity⟩ := forall_mem_append.1 hheld
    have htotals := ih hquantities
    rw [forall_inits_concat, forall_inits_concat, htotals]
    refine and_congr_right fun hfronts => ?_
    have hself : quantities ∈ quantities.inits := (mem_inits _ _).2 (prefix_refl _)
    have hfront : sysTotal (.int 0) quantities = .int (valueTotal quantities) := by
      rw [htotals.2 hfronts quantities hself, wrap_of_lt (hfronts quantities hself).1]
    exact next_iff (hquantity quantity (mem_singleton_self _)) (hfronts quantities hself) hfront

/-- The two services read a node and its pods alike, and get the same totals, exactly if the node has its CPU in cores and
no number is too large for either service. -/
theorem counts_alike_iff (node : Quantity) (pods : List Listed) : Alike node pods ↔ Plain node pods := by
  have hsingle : ∀ front, SameTotals (front.map Listed.single) ↔
      sysTotal (.int 0) front = .int (wrap (valueTotal front)) := by
    intro front
    rw [sameTotals_iff, counted_single]
  constructor
  · rintro ⟨hnode, hcontainers, halong, -⟩
    have hheld : ∀ quantity ∈ counted pods, Held quantity.value :=
      fun quantity hquantity => (container_iff quantity).1 (hcontainers quantity hquantity)
    refine ⟨(node_iff node).1 hnode, hheld, (totals_iff hheld).1 fun front hfront => ?_⟩
    exact (hsingle front).1 (halong front hfront)
  · rintro ⟨hnode, hheld, hfronts⟩
    have htotals := (totals_iff hheld).2 hfronts
    refine ⟨(node_iff node).2 hnode, ?_, ?_, ?_⟩
    · exact fun quantity hquantity => (container_iff quantity).2 (hheld quantity hquantity)
    · exact fun front hfront => (hsingle front).2 (htotals front hfront)
    · exact (sameTotals_iff pods).2 (htotals _ ((mem_inits _ _).2 (prefix_refl _)))

section

/-- What there is to know of the node, if it is read right. -/
def surveyed (node : Quantity) (pods : List Listed) (wsCpu idleThresholdCpu : Nat) : Access.Node :=
  ⟨node.value, valueTotal (counted pods), wsCpu, idleThresholdCpu⟩

/-- No number that the check comes to needs rounding. -/
structure Small (node : Quantity) (pods : List Listed) (wsCpu idleThresholdCpu count : Nat) : Prop where
  needed : count * wsCpu + valueTotal (counted pods) < 2 ^ 53
  wsCpu : wsCpu < 2 ^ 53
  count : count < 2 ^ 53
  allocatable : node.value < 2 ^ 53
  idle : idleThresholdCpu < 2 ^ 53

theorem setting_toString {n : Nat} (h : n < 2 ^ 53) (unset : String) (invalid : Int) :
    setting (some (toString n)) unset invalid = .int n := by
  have hread : parseInt none (toString n).toList = .int n := by
    rw [Nat.toString_eq_ofList_toDigits, String.toList_ofList, parseInt_plain]
    exact ofInt_eq_int h
  rw [setting, Option.getD_some, hread]
  rfl

variable {node : Quantity} {pods : List Listed} {wsCpu idleThresholdCpu total unused : Nat}

theorem canProvision_eq (hplain : Plain node pods) (hsmall : Small node pods wsCpu idleThresholdCpu (total + unused + 1)) :
    canProvision none (some (toString wsCpu)) (some (toString idleThresholdCpu)) total unused (some [some node.text])
        (some (pods.map Listed.sysPod)) =
      .ok ((surveyed node pods wsCpu idleThresholdCpu).Fits (total + unused + 1)) := by
  obtain ⟨hneeded, hwsCpu, hcount, hallocatable, hidle⟩ := hsmall
  obtain ⟨hnode, hheld, hfronts⟩ := hplain
  have hread : allocatableCpu (some node.text) = .ok (.int node.value) := (exists_milliValue.1 ((node_iff node).2 hnode)).2
  have hsys : requestedSysCpu (pods.map Listed.sysPod) = .int (valueTotal (counted pods)) := by
    have htotal := (totals_iff hheld).2 hfronts (counted pods) ((mem_inits _ _).2 (prefix_refl _))
    rw [requestedSysCpu, foldl_addPod, htotal, wrap_of_lt (by omega)]
  have htotal : ((ofInt total).add (.ofInt unused)).add (.int 1) = .int (total + unused + 1 : Nat) := by
    rw [ofInt_eq_int (by omega), ofInt_eq_int (by omega), add, ofInt_eq_int (by omega), add, ofInt_eq_int (by omega)]
    rfl
  have hproduct : mul (.int (total + unused + 1 : Nat)) (.int wsCpu) = .int ((total + unused + 1) * wsCpu : Nat) := by
    rw [mul, ← Nat.cast_mul, ofInt_eq_int (by rw [Int.natAbs_natCast]; omega)]
  have hsum : add (.int ((total + unused + 1) * wsCpu : Nat)) (.int (valueTotal (counted pods))) =
      .int ((total + unused + 1) * wsCpu + valueTotal (counted pods) : Nat) := by
    rw [add, ← Nat.cast_add, ofInt_eq_int (by rw [Int.natAbs_natCast]; exact hneeded)]
  have hrest : sub (.int node.value) (.int idleThresholdCpu) = .int (node.value - idleThresholdCpu) := by
    rw [sub, neg, add, ofInt_eq_int (by omega)]
    rfl
  have hdecides : canProvision none (some (toString wsCpu)) (some (toString idleThresholdCpu)) total unused
      (some [some node.text]) (some (pods.map Listed.sysPod)) =
        .ok (lt (.int ((total + unused + 1) * wsCpu + valueTotal (counted pods) : Nat))
          (.int (node.value - idleThresholdCpu))) := by
    simp only [canProvision, hread, setting_toString hwsCpu, setting_toString hidle, htotal, hproduct, hsys, hsum]
    rw [← hrest]
    rfl
  rw [hdecides]
  simp [lt, Access.Node.Fits, surveyed]

/-- Where the quantities are plain and small, the service decides as it would in whole numbers. -/
theorem canProvision_agrees {b : Books} (hplain : Plain node pods) (hsmall : Small node pods wsCpu idleThresholdCpu
      (totalDedicatedCount b.store + unusedAccessCodeCount b.codes + 1)) :
    canProvision none (some (toString wsCpu)) (some (toString idleThresholdCpu)) (totalDedicatedCount b.store)
        (unusedAccessCodeCount b.codes) (some [some node.text]) (some (pods.map Listed.sysPod)) =
      .ok ((surveyed node pods wsCpu idleThresholdCpu).hasRoom b) :=
  canProvision_eq hplain hsmall

end

/-- A node of four cores, in the one form and in the other, with nothing on it. For twenty dedicated workspaces it is too
small, and by the other form it is not. -/
theorem differ_fourCores :
    (Quantity.millis 4000).text = "4000m" ∧ (Quantity.millis 4000).milliValue = some 4000 ∧
    allocatableCpu (some "4000m") = .ok (.int 4000000) ∧ ¬ Alike (.millis 4000) [] ∧
    canProvision none none none 20 0 (some [some "4"]) (some []) = .ok false ∧
    canProvision none none none 20 0 (some [some "4000m"]) (some []) = .ok true := by
  refine ⟨by decide, by decide, by decide, fun h => ?_, by decide, by decide⟩
  obtain ⟨value, hvalue, hread⟩ := h.node
  have hfour : allocatableCpu (some (Quantity.millis 4000).text) = .ok (.int 4000000) := by decide
  have hmilli : (Quantity.millis 4000).milliValue = some 4000 := by decide
  cases Option.some.inj (hmilli.symm.trans hvalue)
  cases hfour.symm.trans hread

end HideServer.Access.Quantities
