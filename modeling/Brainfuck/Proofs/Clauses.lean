import Mathlib.Data.List.Induction
import Mathlib.Data.Nat.Digits.Defs
import Brainfuck.CommandLine.Arguments
/-!
# The grammar of the command line

A command line is a sequence of clauses: a mode flag, an option with its value, or the name of the file.  `Spells` says
how a clause is written and `Splits` which argument lists are written so, without a word on how they are read.  An
argument list is understood exactly if it splits into clauses of which one is a file; of each kind the last clause
counts, and clauses of different kinds can change places (`Invocation.parse_reads_clauses`).  If it is not understood,
what is reported is the first place at which it cannot be read on (`Stops`).

The reading is taken apart once: `Clause.first` reads one clause, and `Invocation.parseFrom_cons` says that the list is
read clause by clause.
-/
namespace Brainfuck

/-! ## Clauses -/

/-- `text` is a decimal numeral of `n`, which 64 bits hold: an optional `+`, and digits, at least one. -/
def Numeral (text : String) (n : Nat) : Prop :=
  ∃ plus digits : List Char, text.toList = plus ++ digits ∧ (plus = [] ∨ plus = ['+']) ∧ digits ≠ [] ∧
    (∀ c ∈ digits, '0' ≤ c ∧ c ≤ '9') ∧ n = Nat.ofDigits 10 (digits.reverse.map (fun c => c.toNat - '0'.toNat)) ∧
    n < 2 ^ 64

inductive Clause where
  | mode (m : Mode)
  | maxSteps (n : Nat)
  | timeoutMs (n : Nat)
  | tapeCells (n : Nat)
  | eof (behaviour : EofBehavior)
  | file (name : String)
  deriving DecidableEq, Repr

/-- How a clause is written. -/
inductive Spells : Clause → List String → Prop where
  | mode {flag : String} {m : Mode}
      (h : (flag, m) ∈ [("--run", Mode.run), ("-r", .run), ("--check", .check), ("--dump", .dump)]) :
      Spells (.mode m) [flag]
  | maxSteps {value : String} {n : Nat} (h : Numeral value n) : Spells (.maxSteps n) ["--max-steps", value]
  | timeoutMs {value : String} {n : Nat} (h : Numeral value n) : Spells (.timeoutMs n) ["--timeout-ms", value]
  | tapeCells {value : String} {n : Nat} (h : Numeral value n) (hn : n ≠ 0) :
      Spells (.tapeCells n) ["--tape-cells", value]
  | eof {value : String} {behaviour : EofBehavior} (h : EofBehavior.ofName? value = some behaviour) :
      Spells (.eof behaviour) ["--eof", value]
  | file {name : String} (h : name.toList.head? ≠ some '-') : Spells (.file name) [name]

/-- An argument list is written as these clauses, one after the other. -/
inductive Splits : List String → List Clause → Prop where
  | nil : Splits [] []
  | cons {part args : List String} {u : Clause} {us : List Clause} (h : Spells u part) (ht : Splits args us) :
      Splits (part ++ args) (u :: us)

/-- Why an argument list cannot be read on that begins so, after clauses that named these files. -/
inductive Stops (files : List String) : List String → UsageError → Prop where
  | missingValue {flag : String} (h : flag ∈ ["--max-steps", "--timeout-ms", "--tape-cells", "--eof"]) :
      Stops files [flag] (.missingValue flag)
  | notANumber {flag value : String} {rest : List String} (h : flag ∈ ["--max-steps", "--timeout-ms", "--tape-cells"])
      (hv : ∀ n, ¬ Numeral value n) : Stops files (flag :: value :: rest) (.notANumber flag value)
  | noCells {value : String} {rest : List String} (h : Numeral value 0) :
      Stops files ("--tape-cells" :: value :: rest) .noCells
  | unknownEof {value : String} {rest : List String} (h : EofBehavior.ofName? value = none) :
      Stops files ("--eof" :: value :: rest) (.unknownEof value)
  | unknownOption {flag : String} {rest : List String} (hd : flag.toList.head? = some '-')
      (hf : flag ∉ ["--run", "-r", "--check", "--dump", "--max-steps", "--timeout-ms", "--tape-cells", "--eof"]) :
      Stops files (flag :: rest) (.unknownOption flag)
  | secondFile {name : String} {rest : List String} (hf : files ≠ []) (h : name.toList.head? ≠ some '-') :
      Stops files (name :: rest) .secondFile
  | noFile (hf : files = []) : Stops files [] .noFile

namespace Clause

inductive Kind where
  | mode
  | maxSteps
  | timeoutMs
  | tapeCells
  | eof
  | file
  deriving DecidableEq, Repr

def kind : Clause → Kind
  | .mode _ => .mode
  | .maxSteps _ => .maxSteps
  | .timeoutMs _ => .timeoutMs
  | .tapeCells _ => .tapeCells
  | .eof _ => .eof
  | .file _ => .file

def mode? : Clause → Option Mode
  | .mode m => some m
  | _ => none

def maxSteps? : Clause → Option Nat
  | .maxSteps n => some n
  | _ => none

def timeoutMs? : Clause → Option Nat
  | .timeoutMs n => some n
  | _ => none

def tapeCells? : Clause → Option Nat
  | .tapeCells n => some n
  | _ => none

def eof? : Clause → Option EofBehavior
  | .eof behaviour => some behaviour
  | _ => none

def file? : Clause → Option String
  | .file name => some name
  | _ => none

/-- What the last of the clauses says that say anything of this kind. -/
def last {α : Type} (select : Clause → Option α) (us : List Clause) : Option α := (us.filterMap select).getLast?

/-- The configuration that some clauses ask for; what they leave open is as it is without any. -/
def settle (us : List Clause) : Config where
  tape := (last tapeCells? us).elim ({} : Config).tape .fixed
  eof := (last eof? us).getD ({} : Config).eof
  maxSteps := (last maxSteps? us).elim ({} : Config).maxSteps (fun n => if n = 0 then none else some n)
  deadline := (last timeoutMs? us).or ({} : Config).deadline
  cancellable := ({} : Config).cancellable

end Clause

/-! ## Numerals -/

theorem digitsValue_eq (digits : List Char) :
    Text.digitsValue digits = Nat.ofDigits 10 (digits.reverse.map (fun c => c.toNat - '0'.toNat)) := by
  rw [Nat.ofDigits_eq_foldr, List.foldr_map, List.foldr_reverse, Text.digitsValue]
  congr 1
  funext n c
  simp
  omega

theorem isDigit_iff {c : Char} : c.isDigit = true ↔ '0' ≤ c ∧ c ≤ '9' := by
  simp [Char.isDigit, Char.le_def]

theorem dropPlus_append {plus digits : List Char} (hp : plus = [] ∨ plus = ['+'])
    (hd : ∀ c ∈ digits, c.isDigit = true) : Text.dropPlus (plus ++ digits) = digits := by
  rcases hp with rfl | rfl
  · unfold Text.dropPlus
    split
    · rename_i h
      have hplus := hd '+' (by rw [← List.nil_append digits, h]; exact List.mem_cons_self)
      cases hplus
    · rfl
  · rfl

theorem exists_append_dropPlus (cs : List Char) :
    ∃ plus, cs = plus ++ Text.dropPlus cs ∧ (plus = [] ∨ plus = ['+']) := by
  unfold Text.dropPlus
  split
  · exact ⟨['+'], rfl, .inr rfl⟩
  · exact ⟨[], rfl, .inl rfl⟩

theorem unsigned64?_eq_some_iff {text : String} {n : Nat} : Text.unsigned64? text = some n ↔ Numeral text n := by
  unfold Text.unsigned64?
  dsimp only
  constructor
  · intro h
    split at h
    · rename_i hd
      obtain ⟨hne, hall, hlt⟩ := hd
      cases h
      obtain ⟨plus, hplus, hp⟩ := exists_append_dropPlus text.toList
      exact ⟨plus, _, hplus, hp, hne, fun c hc => isDigit_iff.1 (List.all_eq_true.1 hall c hc), digitsValue_eq _, hlt⟩
    · cases h
  · rintro ⟨plus, digits, htext, hp, hne, hall, rfl, hlt⟩
    have hdigit : ∀ c ∈ digits, c.isDigit = true := fun c hc => isDigit_iff.2 (hall c hc)
    rw [← digitsValue_eq] at hlt ⊢
    rw [htext, dropPlus_append hp hdigit, if_pos ⟨hne, List.all_eq_true.2 hdigit, hlt⟩]

theorem unsigned64?_eq_none_iff {text : String} : Text.unsigned64? text = none ↔ ∀ n, ¬ Numeral text n := by
  simp only [← unsigned64?_eq_some_iff]
  cases Text.unsigned64? text <;> simp

/-! ## One clause -/

theorem Mode.ofFlag?_eq_some_iff {flag : String} {m : Mode} : Mode.ofFlag? flag = some m ↔
    (flag, m) ∈ [("--run", Mode.run), ("-r", .run), ("--check", .check), ("--dump", .dump)] := by
  unfold Mode.ofFlag?
  split <;> simp_all [eq_comm]

theorem Mode.ofFlag?_eq_none_iff {flag : String} :
    Mode.ofFlag? flag = none ↔ flag ∉ ["--run", "-r", "--check", "--dump"] := by
  unfold Mode.ofFlag?
  split <;> simp_all

theorem Mode.ofFlag?_flag (o : ValueOption) : Mode.ofFlag? o.flag = none := by cases o <;> rfl

theorem ValueOption.ofFlag?_eq_some_iff {flag : String} {o : ValueOption} :
    ValueOption.ofFlag? flag = some o ↔ flag = o.flag := by
  unfold ValueOption.ofFlag?
  split <;> cases o <;> simp_all [ValueOption.flag]

theorem ValueOption.ofFlag?_eq_none_iff {flag : String} :
    ValueOption.ofFlag? flag = none ↔ flag ∉ ["--max-steps", "--timeout-ms", "--tape-cells", "--eof"] := by
  unfold ValueOption.ofFlag?
  split <;> simp_all

theorem Mode.dashed_of_ofFlag? {flag : String} {m : Mode} (h : Mode.ofFlag? flag = some m) :
    flag.toList.head? = some '-' := by
  unfold Mode.ofFlag? at h
  split at h
  · rfl
  · rfl
  · rfl
  · rfl
  · cases h

theorem ValueOption.dashed_flag (o : ValueOption) : o.flag.toList.head? = some '-' := by cases o <;> rfl

namespace Clause

/-- The clause of an option and its value. -/
def ofOption (o : ValueOption) (value : String) : Except UsageError Clause :=
  match o with
  | .maxSteps => (o.number value).map .maxSteps
  | .timeoutMs => (o.number value).map .timeoutMs
  | .tapeCells =>
    match o.number value with
    | .error e => .error e
    | .ok n => if n = 0 then .error .noCells else .ok (.tapeCells n)
  | .eof =>
    match EofBehavior.ofName? value with
    | some behaviour => .ok (.eof behaviour)
    | none => .error (.unknownEof value)

/-- The clause that an argument list begins with, and what follows it. -/
def first (arg : String) (rest : List String) : Except UsageError (Clause × List String) :=
  match Mode.ofFlag? arg, ValueOption.ofFlag? arg with
  | some m, _ => .ok (.mode m, rest)
  | none, some o =>
    match rest with
    | [] => .error (.missingValue arg)
    | value :: rest => (ofOption o value).map (fun u => (u, rest))
  | none, none => if arg.toList.head? = some '-' then .error (.unknownOption arg) else .ok (.file arg, rest)

variable {u : Clause} {part : List String} {arg name value : String}

theorem number_cases (o : ValueOption) (value : String) :
    (∃ n, o.number value = .ok n ∧ Numeral value n) ∨
      (o.number value = .error (.notANumber o.flag value) ∧ ∀ n, ¬ Numeral value n) := by
  unfold ValueOption.number
  cases hn : Text.unsigned64? value with
  | some n => exact .inl ⟨n, rfl, unsigned64?_eq_some_iff.1 hn⟩
  | none => exact .inr ⟨rfl, unsigned64?_eq_none_iff.1 hn⟩

/-- **What becomes of the value of an option**: a clause, or the reason why it is none. -/
theorem ofOption_cases (o : ValueOption) (value : String) :
    (∃ u, ofOption o value = .ok u ∧ Spells u [o.flag, value] ∧ u.file? = none) ∨
      ∃ e, ofOption o value = .error e ∧ ∀ files rest, Stops files (o.flag :: value :: rest) e := by
  cases o with
  | maxSteps =>
    obtain ⟨n, hn, h⟩ | ⟨hn, h⟩ := number_cases .maxSteps value
    · exact .inl ⟨.maxSteps n, by rw [ofOption, hn]; rfl, .maxSteps h, rfl⟩
    · exact .inr ⟨_, by rw [ofOption, hn]; rfl, fun _ _ => .notANumber (by decide) h⟩
  | timeoutMs =>
    obtain ⟨n, hn, h⟩ | ⟨hn, h⟩ := number_cases .timeoutMs value
    · exact .inl ⟨.timeoutMs n, by rw [ofOption, hn]; rfl, .timeoutMs h, rfl⟩
    · exact .inr ⟨_, by rw [ofOption, hn]; rfl, fun _ _ => .notANumber (by decide) h⟩
  | tapeCells =>
    obtain ⟨n, hn, h⟩ | ⟨hn, h⟩ := number_cases .tapeCells value
    · by_cases hz : n = 0
      · subst hz
        exact .inr ⟨.noCells, by rw [ofOption, hn]; rfl, fun _ _ => .noCells h⟩
      · exact .inl ⟨.tapeCells n, by simp [ofOption, hn, hz], .tapeCells h hz, rfl⟩
    · exact .inr ⟨_, by rw [ofOption, hn], fun _ _ => .notANumber (by decide) h⟩
  | eof =>
    cases hn : EofBehavior.ofName? value with
    | some behaviour => exact .inl ⟨.eof behaviour, by rw [ofOption, hn], .eof hn, rfl⟩
    | none => exact .inr ⟨.unknownEof value, by rw [ofOption, hn], fun _ _ => .unknownEof hn⟩

theorem first_mode {m : Mode} (h : Mode.ofFlag? arg = some m) (rest : List String) :
    first arg rest = .ok (.mode m, rest) := by
  simp only [first, h]

theorem first_option (o : ValueOption) (value : String) (rest : List String) :
    first o.flag (value :: rest) = (ofOption o value).map (fun u => (u, rest)) := by
  simp only [first, Mode.ofFlag?_flag, ValueOption.ofFlag?_eq_some_iff.2 rfl]

theorem first_option_nil (o : ValueOption) : first o.flag [] = .error (.missingValue o.flag) := by
  simp only [first, Mode.ofFlag?_flag, ValueOption.ofFlag?_eq_some_iff.2 rfl]

theorem first_file (h : name.toList.head? ≠ some '-') (rest : List String) :
    first name rest = .ok (.file name, rest) := by
  have hm : Mode.ofFlag? name = none :=
    Option.eq_none_iff_forall_ne_some.2 (fun m hm => h (Mode.dashed_of_ofFlag? hm))
  have ho : ValueOption.ofFlag? name = none := by
    refine Option.eq_none_iff_forall_ne_some.2 (fun o ho => h ?_)
    rw [ValueOption.ofFlag?_eq_some_iff.1 ho]
    exact o.dashed_flag
  simp only [first, hm, ho, if_neg h]

/-- **An argument list begins with a clause, or cannot be read on.** -/
theorem first_cases (arg : String) (rest : List String) :
    (∃ u part later, first arg rest = .ok (u, later) ∧ Spells u part ∧ arg :: rest = part ++ later) ∨
      ∃ e, first arg rest = .error e ∧ ∀ files, Stops files (arg :: rest) e := by
  cases hm : Mode.ofFlag? arg with
  | some m => exact .inl ⟨.mode m, [arg], rest, first_mode hm rest, .mode (Mode.ofFlag?_eq_some_iff.1 hm), rfl⟩
  | none =>
    cases ho : ValueOption.ofFlag? arg with
    | none =>
      by_cases hd : arg.toList.head? = some '-'
      · refine .inr ⟨.unknownOption arg, by simp only [first, hm, ho, if_pos hd], fun files => .unknownOption hd ?_⟩
        have hmode := Mode.ofFlag?_eq_none_iff.1 hm
        have hoption := ValueOption.ofFlag?_eq_none_iff.1 ho
        simp_all
      · exact .inl ⟨.file arg, [arg], rest, first_file hd rest, .file hd, rfl⟩
    | some o =>
      obtain rfl := ValueOption.ofFlag?_eq_some_iff.1 ho
      cases rest with
      | nil => exact .inr ⟨_, first_option_nil o, fun files => .missingValue (by cases o <;> decide)⟩
      | cons value rest =>
        rw [first_option]
        obtain ⟨u, hu, hs, -⟩ | ⟨e, he, hstops⟩ := ofOption_cases o value
        · exact .inl ⟨u, [o.flag, value], rest, by rw [hu]; rfl, hs, rfl⟩
        · exact .inr ⟨e, by rw [he]; rfl, fun files => hstops files rest⟩

theorem number_of_numeral {n : Nat} (h : Numeral value n) (o : ValueOption) : o.number value = .ok n := by
  rw [ValueOption.number, unsigned64?_eq_some_iff.2 h]

/-- **A clause is read as it is written**, whatever comes after it. -/
theorem first_of_spells (h : Spells u part) (later : List String) :
    ∃ arg rest, part ++ later = arg :: rest ∧ first arg rest = .ok (u, later) := by
  have hoption : ∀ {o : ValueOption} {value : String}, ofOption o value = .ok u →
      first o.flag (value :: later) = .ok (u, later) := by
    intro o value ho
    rw [first_option, ho]
    rfl
  cases h with
  | mode h => exact ⟨_, _, rfl, first_mode (Mode.ofFlag?_eq_some_iff.2 h) later⟩
  | maxSteps h => exact ⟨_, _, rfl, hoption (o := .maxSteps) (by rw [ofOption, number_of_numeral h]; rfl)⟩
  | timeoutMs h => exact ⟨_, _, rfl, hoption (o := .timeoutMs) (by rw [ofOption, number_of_numeral h]; rfl)⟩
  | tapeCells h hn => exact ⟨_, _, rfl, hoption (o := .tapeCells) (by simp [ofOption, number_of_numeral h, hn])⟩
  | eof h => exact ⟨_, _, rfl, hoption (o := .eof) (by rw [ofOption, h])⟩
  | file h => exact ⟨_, _, rfl, first_file h later⟩

end Clause

theorem Spells.length_pos {u : Clause} {part : List String} (h : Spells u part) : 0 < part.length := by
  cases h <;> exact Nat.succ_pos _

/-- **A list is written as clauses in one way only.** -/
theorem Splits.unique {args : List String} {us us' : List Clause} (h : Splits args us) (h' : Splits args us') :
    us = us' := by
  induction h generalizing us' with
  | nil =>
    generalize hnil : ([] : List String) = args at h'
    cases h' with
    | nil => rfl
    | cons hu =>
      have hlen := congrArg List.length hnil
      have hpos := hu.length_pos
      rw [List.length_append, List.length_nil] at hlen
      omega
  | @cons part args u us hu ht ih =>
    obtain ⟨arg, rest, hargs, hfirst⟩ := Clause.first_of_spells hu args
    rw [hargs] at h'
    generalize hall : arg :: rest = all at h'
    cases h' with
    | nil => cases hall
    | cons hu' ht' =>
      obtain ⟨arg', rest', hargs', hfirst'⟩ := Clause.first_of_spells hu' _
      cases hall.trans hargs'
      cases hfirst.symm.trans hfirst'
      rw [ih ht']

/-! ## Clause by clause -/

namespace Invocation

open Clause

variable {d : Draft} {us : List Clause} {args rest : List String} {e : UsageError}

/-- What a clause adds to what is settled. -/
def Draft.take (d : Draft) : Clause → Draft
  | .mode m => { d with mode := m }
  | .maxSteps n => { d with config.maxSteps := if n = 0 then none else some n }
  | .timeoutMs n => { d with config.deadline := some n }
  | .tapeCells n => { d with config.tape := .fixed n }
  | .eof behaviour => { d with config.eof := behaviour }
  | .file name => { d with file := some name }

theorem Draft.take_file (d : Draft) (u : Clause) : (d.take u).file = u.file?.or d.file := by cases u <;> rfl

theorem map_apply (d : Draft) (o : ValueOption) (value : String) :
    (o.apply value d.config).map (fun config => { d with config }) = (ofOption o value).map d.take := by
  cases o with
  | maxSteps | timeoutMs =>
    simp only [ValueOption.apply, ofOption]
    cases ValueOption.number _ value <;> rfl
  | tapeCells =>
    simp only [ValueOption.apply, ofOption]
    cases ValueOption.number .tapeCells value with
    | error e => rfl
    | ok n => by_cases hn : n = 0 <;> simp [hn, Except.map, Draft.take]
  | eof =>
    simp only [ValueOption.apply, ofOption]
    cases EofBehavior.ofName? value <;> rfl

/-- **The list is read clause by clause**: the first one is taken, unless it is a file after another, and then the
rest. -/
theorem parseFrom_cons (d : Draft) (arg : String) (rest : List String) :
    parseFrom d (arg :: rest) = (first arg rest).bind (fun (u, later) =>
      if (d.file.toList ++ u.file?.toList).length ≤ 1 then parseFrom (d.take u) later else .error .secondFile) := by
  have hone : d.file.toList.length ≤ 1 := by cases d.file <;> simp
  rw [parseFrom, first]
  cases Mode.ofFlag? arg with
  | some m => simp [Except.bind, file?, Draft.take, hone]
  | none =>
    cases ValueOption.ofFlag? arg with
    | none =>
      dsimp only
      split
      · rfl
      · cases d.file <;> simp [Except.bind, file?, Draft.take]
    | some o =>
      cases rest with
      | nil => rfl
      | cons value rest =>
        have happly := map_apply d o value
        dsimp only
        obtain ⟨u, hu, -, hfile⟩ | ⟨e, he, -⟩ := ofOption_cases o value
        · rw [hu] at happly ⊢
          cases hc : o.apply value d.config with
          | error e => rw [hc] at happly; cases happly
          | ok config =>
            rw [hc] at happly
            have htake : { d with config } = d.take u := Except.ok.inj happly
            simp [Except.bind, Except.map, hfile, htake, hone]
        · rw [he] at happly ⊢
          cases hc : o.apply value d.config with
          | error e => rw [hc] at happly; cases happly; rfl
          | ok config => rw [hc] at happly; cases happly

theorem parseFrom_of_first_error {arg : String} (h : first arg rest = .error e) (d : Draft) :
    parseFrom d (arg :: rest) = .error e := by
  rw [parseFrom_cons, h]
  rfl

theorem parseFrom_of_ofOption_error {o : ValueOption} {value : String} (h : ofOption o value = .error e) (d : Draft)
    (rest : List String) : parseFrom d (o.flag :: value :: rest) = .error e := by
  refine parseFrom_of_first_error ?_ d
  rw [first_option, h]
  rfl

/-- **Where the list cannot be read on, the reading ends with the reason.** -/
theorem parseFrom_of_stops (h : Stops d.file.toList rest e) : parseFrom d rest = .error e := by
  cases h with
  | @missingValue flag h =>
    obtain ⟨o, ho⟩ := Option.ne_none_iff_exists'.1 (fun hn => ValueOption.ofFlag?_eq_none_iff.1 hn h)
    obtain rfl := ValueOption.ofFlag?_eq_some_iff.1 ho
    exact parseFrom_of_first_error (first_option_nil o) d
  | @notANumber flag value rest h hv =>
    have hnumber : ∀ o : ValueOption, o.number value = .error (.notANumber o.flag value) := by
      intro o
      rw [ValueOption.number, unsigned64?_eq_none_iff.2 hv]
    simp only [List.mem_cons, List.not_mem_nil, or_false] at h
    rcases h with rfl | rfl | rfl
    · exact parseFrom_of_ofOption_error (o := .maxSteps) (by rw [ofOption, hnumber]; rfl) d rest
    · exact parseFrom_of_ofOption_error (o := .timeoutMs) (by rw [ofOption, hnumber]; rfl) d rest
    · exact parseFrom_of_ofOption_error (o := .tapeCells) (by rw [ofOption, hnumber]; rfl) d rest
  | noCells h =>
    exact parseFrom_of_ofOption_error (o := .tapeCells) (by rw [ofOption, number_of_numeral h]; rfl) d _
  | unknownEof h => exact parseFrom_of_ofOption_error (o := .eof) (by rw [ofOption, h]) d _
  | @unknownOption flag rest hd hf =>
    have hm : Mode.ofFlag? flag = none := Mode.ofFlag?_eq_none_iff.2 (by simp_all)
    have ho : ValueOption.ofFlag? flag = none := ValueOption.ofFlag?_eq_none_iff.2 (by simp_all)
    exact parseFrom_of_first_error (by simp only [first, hm, ho, if_pos hd]) d
  | secondFile hf h =>
    rw [parseFrom_cons, first_file h]
    cases hd : d.file with
    | none => exact absurd (by rw [hd]; rfl) hf
    | some name => rfl
  | noFile hf =>
    rw [parseFrom]
    cases hd : d.file with
    | none => rfl
    | some name => rw [hd] at hf; cases hf

/-- **A part of the list that is written as clauses settles what they say**, if it names no second file. -/
theorem parseFrom_append (h : Splits args us) (d : Draft) (rest : List String) :
    parseFrom d (args ++ rest) = if (d.file.toList ++ us.filterMap file?).length ≤ 1
      then parseFrom (us.foldl Draft.take d) rest else .error .secondFile := by
  induction h generalizing d with
  | nil => cases hd : d.file <;> simp
  | @cons part args u us hu ht ih =>
    obtain ⟨arg, later, hargs, hfirst⟩ := first_of_spells hu (args ++ rest)
    rw [List.append_assoc, hargs, parseFrom_cons, hfirst]
    simp only [Except.bind, ih, Draft.take_file, List.foldl_cons]
    cases d.file <;> cases hfile : u.file? <;> simp [hfile]

/-! ## Whole lists -/

theorem last_concat {α : Type} (select : Clause → Option α) (us : List Clause) (u : Clause) :
    last select (us ++ [u]) = (select u).or (last select us) := by
  simp only [last, List.filterMap_append]
  cases hu : select u <;> simp [hu]

/-- **Of each kind the last clause counts.** -/
theorem foldl_take (us : List Clause) :
    us.foldl Draft.take {} = ⟨(last mode? us).getD .interactive, last file? us, settle us⟩ := by
  induction us using List.reverseRecOn with
  | nil => rfl
  | append_singleton us u ih =>
    rw [List.foldl_append, ih]
    cases u <;> simp [settle, last_concat, Draft.take, mode?, maxSteps?, timeoutMs?, tapeCells?, eof?, file?]

/-- **What becomes of a list that is written as clauses.** -/
theorem parse_of_splits (h : Splits args us) :
    parse args = match us.filterMap file? with
      | [] => .error .noFile
      | [name] => .ok ⟨(last mode? us).getD .interactive, name, settle us⟩
      | _ :: _ :: _ => .error .secondFile := by
  have happend := parseFrom_append h {} []
  have hfile : last file? us = (us.filterMap file?).getLast? := rfl
  rw [List.append_nil, foldl_take, hfile] at happend
  rw [parse, happend]
  match us.filterMap file? with
  | [] => rfl
  | [name] => rfl
  | _ :: _ :: _ => rfl

theorem parse_of_stops (h : Splits args us) (hle : (us.filterMap file?).length ≤ 1)
    (he : Stops (us.filterMap file?) rest e) : parse (args ++ rest) = .error e := by
  have hfile : (last file? us).toList = us.filterMap file? := by
    rw [last]
    match us.filterMap file?, hle with
    | [], _ => rfl
    | [name], _ => rfl
  rw [parse, parseFrom_append h, if_pos (by simpa using hle), foldl_take]
  exact parseFrom_of_stops (by rwa [hfile])

/-- After clauses that named these files, the list is written as clauses up to its end, or up to a place at which it
cannot be read on. -/
def Reading (files args : List String) : Prop :=
  ∃ us before rest, args = before ++ rest ∧ Splits before us ∧ (files ++ us.filterMap file?).length ≤ 1 ∧
    (rest = [] ∧ files ++ us.filterMap file? ≠ [] ∨ ∃ e, Stops (files ++ us.filterMap file?) rest e)

theorem reading_of_stops {files : List String} (hfiles : files.length ≤ 1) (h : Stops files args e) :
    Reading files args :=
  ⟨[], [], args, rfl, .nil, by simpa using hfiles, .inr ⟨e, by simpa using h⟩⟩

theorem reading_append {files part : List String} {u : Clause} (hu : Spells u part)
    (h : Reading (files ++ u.file?.toList) args) : Reading files (part ++ args) := by
  obtain ⟨us, before, rest, rfl, hs, hle, hend⟩ := h
  have hfiles : files ++ (u :: us).filterMap file? = files ++ u.file?.toList ++ us.filterMap file? := by
    cases hfile : u.file? <;> simp [hfile]
  rw [← hfiles] at hle hend
  exact ⟨u :: us, part ++ before, rest, (List.append_assoc ..).symm, .cons hu hs, hle, hend⟩

theorem reading_of_length_le (args files : List String) (hfiles : files.length ≤ 1) : Reading files args := by
  -- The measure is the length of the list: a clause is one or two arguments.
  induction hlen : args.length using Nat.strong_induction_on generalizing args files with
  | _ len ih =>
    cases args with
    | nil =>
      by_cases hf : files = []
      · exact reading_of_stops hfiles (.noFile hf)
      · exact ⟨[], [], [], rfl, .nil, by simpa using hfiles, .inl ⟨rfl, by simpa using hf⟩⟩
    | cons arg rest =>
      obtain ⟨u, part, later, -, hu, hargs⟩ | ⟨e, -, hstops⟩ := first_cases arg rest
      · by_cases hone : (files ++ u.file?.toList).length ≤ 1
        · have hlater : later.length < len := by
            have hpart := hu.length_pos
            have hsum := congrArg List.length hargs
            rw [List.length_append] at hsum
            omega
          rw [hargs]
          exact reading_append hu (ih _ hlater later _ hone rfl)
        · refine reading_of_stops (e := .secondFile) hfiles ?_
          cases hu with
          | file h =>
            cases hargs
            exact .secondFile (fun hf => hone (by rw [hf]; exact Nat.le_refl 1)) h
          | _ => exact absurd (by simpa [file?] using hfiles) hone
      · exact reading_of_stops hfiles (hstops files)

/-- **Every list is written as clauses up to its end or up to a place at which it cannot be read on.** -/
theorem splits_or_stops (args : List String) :
    (∃ us name, Splits args us ∧ us.filterMap file? = [name]) ∨
      ∃ us before rest e, args = before ++ rest ∧ Splits before us ∧ (us.filterMap file?).length ≤ 1 ∧
        Stops (us.filterMap file?) rest e := by
  obtain ⟨us, before, rest, rfl, hs, hle, ⟨rfl, hne⟩ | ⟨e, he⟩⟩ :=
    reading_of_length_le args [] (Nat.zero_le 1)
  · obtain ⟨name, hname⟩ := List.length_eq_one_iff.1 (Nat.le_antisymm hle (List.length_pos_iff.2 hne))
    exact .inl ⟨us, name, by rwa [List.append_nil], hname⟩
  · exact .inr ⟨us, before, rest, e, rfl, hs, hle, he⟩

theorem filterMap_eq_of_filter_eq {α : Type} {f : Clause → Option α} {k : Kind} {us us' : List Clause}
    (hk : ∀ u, u.kind ≠ k → f u = none) (h : us.filter (·.kind = k) = us'.filter (·.kind = k)) :
    us.filterMap f = us'.filterMap f := by
  have hfilter : ∀ us : List Clause, (us.filter (·.kind = k)).filterMap f = us.filterMap f := by
    intro us
    rw [List.filterMap_filter]
    congr 1
    funext u
    by_cases hu : u.kind = k
    · simp [hu]
    · simp [hu, hk u hu]
  rw [← hfilter us, h, hfilter us']

/-- **How clauses of different kinds are interleaved does not matter.** -/
theorem parse_eq_of_filter_eq {args' : List String} {us' : List Clause} (h : Splits args us) (h' : Splits args' us')
    (hk : ∀ k, us'.filter (·.kind = k) = us.filter (·.kind = k)) : parse args' = parse args := by
  have hmode := filterMap_eq_of_filter_eq (f := mode?) (by rintro ⟨⟩ hu <;> simp_all [kind, mode?]) (hk .mode)
  have hsteps := filterMap_eq_of_filter_eq (f := maxSteps?) (by rintro ⟨⟩ hu <;> simp_all [kind, maxSteps?])
    (hk .maxSteps)
  have htime := filterMap_eq_of_filter_eq (f := timeoutMs?) (by rintro ⟨⟩ hu <;> simp_all [kind, timeoutMs?])
    (hk .timeoutMs)
  have hcells := filterMap_eq_of_filter_eq (f := tapeCells?) (by rintro ⟨⟩ hu <;> simp_all [kind, tapeCells?])
    (hk .tapeCells)
  have heof := filterMap_eq_of_filter_eq (f := eof?) (by rintro ⟨⟩ hu <;> simp_all [kind, eof?]) (hk .eof)
  have hfile := filterMap_eq_of_filter_eq (f := file?) (by rintro ⟨⟩ hu <;> simp_all [kind, file?]) (hk .file)
  rw [parse_of_splits h, parse_of_splits h']
  simp only [last, settle, hmode, hsteps, htime, hcells, heof, hfile]

/-- **A list is understood exactly if it is written as clauses of which one is a file**, and there is one way to write
it so.  Of each kind the last clause counts, and it does not matter how clauses of different kinds are interleaved.
If the list is not understood, it is for the first place at which it cannot be read on. -/
theorem parse_reads_clauses (args : List String) :
    (∀ inv, parse args = .ok inv ↔ ∃ us, Splits args us ∧ us.filterMap file? = [inv.file] ∧
      inv.mode = (last mode? us).getD .interactive ∧ inv.config = settle us) ∧
    (∀ us us', Splits args us → Splits args us' → us = us') ∧
    (∀ us args' us', Splits args us → Splits args' us' → (∀ k, us'.filter (·.kind = k) = us.filter (·.kind = k)) →
      parse args' = parse args) ∧
    ∀ e, parse args = .error e ↔ ∃ us before rest, args = before ++ rest ∧ Splits before us ∧
      (us.filterMap file?).length ≤ 1 ∧ Stops (us.filterMap file?) rest e := by
  refine ⟨fun inv => ⟨fun hok => ?_, ?_⟩, fun us us' h h' => h.unique h', ?_, fun e => ⟨fun herr => ?_, ?_⟩⟩
  · obtain ⟨us, name, hs, hname⟩ | ⟨us, before, rest, e, rfl, hs, hle, he⟩ := splits_or_stops args
    · rw [parse_of_splits hs, hname] at hok
      cases hok
      exact ⟨us, hs, hname, rfl, rfl⟩
    · rw [parse_of_stops hs hle he] at hok
      cases hok
  · rintro ⟨us, hs, hfile, hmode, hconfig⟩
    rw [parse_of_splits hs, hfile, ← hmode, ← hconfig]
  · exact fun us args' us' h h' hk => parse_eq_of_filter_eq h h' hk
  · obtain ⟨us, name, hs, hname⟩ | ⟨us, before, rest, e', rfl, hs, hle, he⟩ := splits_or_stops args
    · rw [parse_of_splits hs, hname] at herr
      cases herr
    · rw [parse_of_stops hs hle he] at herr
      cases herr
      exact ⟨us, before, rest, rfl, hs, hle, he⟩
  · rintro ⟨us, before, rest, rfl, hs, hle, he⟩
    exact parse_of_stops hs hle he

theorem parse_reads_clauses_interleaved :
    parse ["--max-steps", "5", "--eof", "-1", "--run", "--max-steps", "+0", "prog.b"] =
      .ok ⟨.run, "prog.b", { eof := .ones, maxSteps := none }⟩ ∧
    parse ["prog.b", "--max-steps", "5", "--max-steps", "+0", "--run", "--eof", "-1"] =
      parse ["--max-steps", "5", "--eof", "-1", "--run", "--max-steps", "+0", "prog.b"] ∧
    parse ["prog.b", "--max-steps", "--run", "--bogus"] = .error (.notANumber "--max-steps" "--run") := by
  have h5 : Numeral "5" 5 := unsigned64?_eq_some_iff.1 (by decide)
  have h0 : Numeral "+0" 0 := unsigned64?_eq_some_iff.1 (by decide)
  have hprog : Spells (.file "prog.b") ["prog.b"] := .file (by decide)
  have hs : Splits ["--max-steps", "5", "--eof", "-1", "--run", "--max-steps", "+0", "prog.b"]
      [.maxSteps 5, .eof .ones, .mode .run, .maxSteps 0, .file "prog.b"] :=
    .cons (.maxSteps h5) (.cons (.eof rfl) (.cons (.mode (by decide)) (.cons (.maxSteps h0) (.cons hprog .nil))))
  have hs' : Splits ["prog.b", "--max-steps", "5", "--max-steps", "+0", "--run", "--eof", "-1"]
      [.file "prog.b", .maxSteps 5, .maxSteps 0, .mode .run, .eof .ones] :=
    .cons hprog (.cons (.maxSteps h5) (.cons (.maxSteps h0) (.cons (.mode (by decide)) (.cons (.eof rfl) .nil))))
  refine ⟨((parse_reads_clauses _).1 _).2 ⟨_, hs, rfl, rfl, rfl⟩,
    (parse_reads_clauses _).2.2.1 _ _ _ hs hs' (by rintro ⟨⟩ <;> rfl), ?_⟩
  refine ((parse_reads_clauses _).2.2.2 _).2 ⟨[.file "prog.b"], ["prog.b"], ["--max-steps", "--run", "--bogus"], rfl,
    .cons hprog .nil, Nat.le_refl 1, .notANumber (by decide) ?_⟩
  exact unsigned64?_eq_none_iff.1 (by decide)

end Invocation

end Brainfuck
