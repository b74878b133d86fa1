import Nrf52Platform.Support.Dict
import Nrf52Platform.Support.Text

/-!
# Scons — Subst

Construction variables and their substitution: `env.subst(text)` replaces every `$NAME` and
`${NAME}` of `text` by the value of the variable, itself substituted with that variable hidden;
`$$` stands for a dollar sign, an unset variable for nothing, a list for its elements joined by
spaces, and a file for its path in quotes.

* `subst_eq`: a substitution goes through the text piece by piece.
* `subst_plain`: a text without a dollar sign stands for itself.
* `subst_var`: a reference stands for the value of its variable.
* `subst_join`: a command template, whose parts are joined with spaces, is substituted part by part.
* `subst_congr`: a substitution depends on the variables it reaches, and on no others.
-/

namespace Scons
open Py

/-- The command that a string action runs through the shell, with the text it shows and the
directory it runs in. -/
structure CommandAction where
  cmd : Str
  strfunction : Str
  chdir : Option Str
  deriving DecidableEq

/-- The value of a construction variable.  A node is a file, with its path; a dictionary is a
reference to the object. -/
inductive Value where
  | str (s : Str)
  | list (l : List Str)
  | node (path : Str)
  | dict (ref : ℕ)
  | action (a : CommandAction)
  deriving DecidableEq

/-- The construction variables of an environment. -/
abbrev Vars := Dict Str Value

/-! ### The pieces of a text -/

/-- A character that stands for itself, or a reference to a variable. -/
inductive Piece where
  | char (c : Char)
  | var (name : Str)
  deriving DecidableEq

/-- What may start a variable's name. -/
def isNameStart (c : Char) : Bool := c.isAlpha || c == '_'

/-- What may continue a variable's name. -/
def isNameChar (c : Char) : Bool := c.isAlphanum || c == '_' || c == '.'

/-- Where the reader of a text stands: in plain text, behind a dollar sign, in a name, or in a
braced name. -/
inductive Reader where
  | text
  | dollar
  | name (w : Str)
  | brace (w : Str)

/-- The pieces of a text. -/
def piecesFrom : Reader → Str → List Piece
  | .text, [] => []
  | .text, c :: cs => if c = '$' then piecesFrom .dollar cs else .char c :: piecesFrom .text cs
  | .dollar, [] => [.char '$']
  -- `$$` is a dollar sign; `$(` and `$)` only mark what signatures leave out
  | .dollar, c :: cs =>
      if c = '$' then .char '$' :: piecesFrom .text cs
      else if c = '(' || c = ')' then piecesFrom .text cs
      else if c = '{' then piecesFrom (.brace []) cs
      else if isNameStart c then piecesFrom (.name [c]) cs
      else .char '$' :: .char c :: piecesFrom .text cs
  | .name w, [] => [.var w]
  | .name w, c :: cs =>
      if isNameChar c then piecesFrom (.name (w ++ [c])) cs
      else if c = '$' then .var w :: piecesFrom .dollar cs
      else .var w :: .char c :: piecesFrom .text cs
  | .brace w, [] => .char '$' :: .char '{' :: w.map .char
  | .brace w, c :: cs => if c = '}' then .var w :: piecesFrom .text cs
      else piecesFrom (.brace (w ++ [c])) cs

/-- The pieces of a text, from its start. -/
def pieces (s : Str) : List Piece := piecesFrom .text s

/-! ### Substitution -/

/-- The text a value stands for, its strings read through `f`.  A node is a literal, which is quoted
for the shell.  (What a shell sees in quotes, the build tool escapes there; that is left out.) -/
def Value.text (f : Str → Str) : Value → Str
  | .str s => f s
  | .list l => join " " (l.map f)
  | .node path => '"' :: (path ++ ['"'])
  | .dict _ => []
  | .action _ => []

/-- The text a piece stands for, the variables' strings read through `f`. -/
def Piece.text (vars : Vars) (f : Vars → Str → Str) : Piece → Str
  | .char c => [c]
  | .var x => match vars.get? x with
    | none => []
    | some v => v.text (f (vars.erase x))

/-- Substitution, to a depth. -/
def expand : ℕ → Vars → Str → Str
  | 0, _, _ => []
  | n + 1, vars, s => (pieces s).flatMap (Piece.text vars (expand n))

/-- `env.subst(s)`: a reference hides its variable, so the depth is at most the number of
variables.  White space stays as it is, while the build tool squeezes runs of it, and strips it. -/
def subst (vars : Vars) (s : Str) : Str := expand (vars.items.length + 1) vars s

theorem length_erase_lt {vars : Vars} {x : Str} {v : Value} (h : vars.get? x = some v) :
    (vars.erase x).items.length < vars.items.length := by
  refine List.length_filter_lt_length_iff_exists.mpr ⟨(x, v), ?_, by simp⟩
  exact (Dict.mem_items_iff vars).mpr h

/-- Beyond the number of variables the depth does not matter. -/
theorem expand_depth : ∀ {n m : ℕ} {vars : Vars}, vars.items.length < n → vars.items.length < m →
    ∀ s, expand n vars s = expand m vars s
  | n + 1, m + 1, vars, hn, hm, s => by
      refine List.flatMap_congr fun p _ => ?_
      cases p with
      | char c => rfl
      | var x =>
          simp only [Piece.text]
          cases hx : vars.get? x with
          | none => rfl
          | some v =>
              have hlt := length_erase_lt hx
              have hf : expand n (vars.erase x) = expand m (vars.erase x) :=
                funext fun s => expand_depth (by omega) (by omega) s
              simp only [hf]

/-- **A substitution goes through the text piece by piece.** -/
theorem subst_eq (vars : Vars) (s : Str) :
    subst vars s = (pieces s).flatMap (Piece.text vars subst) := by
  refine List.flatMap_congr fun p _ => ?_
  cases p with
  | char c => rfl
  | var x =>
      simp only [Piece.text]
      cases hx : vars.get? x with
      | none => rfl
      | some v =>
          -- the variable is hidden below, so one level of depth less is enough
          have hlt := length_erase_lt hx
          have hf : expand vars.items.length (vars.erase x) = subst (vars.erase x) :=
            funext fun s => expand_depth hlt (Nat.lt_succ_self _) s
          simp only [hf]

theorem pieces_plain_append {a : Str} (ha : '$' ∉ a) (s : Str) :
    pieces (a ++ s) = a.map .char ++ pieces s := by
  induction a with
  | nil => rfl
  | cons c a ih =>
      have hc : c ≠ '$' := fun h => ha (h ▸ List.mem_cons_self)
      have ih := ih fun h => ha (List.mem_cons_of_mem _ h)
      rw [pieces] at ih ⊢
      rw [List.cons_append, piecesFrom, if_neg hc, ih]
      rfl

/-- Plain text in front stands for itself. -/
theorem subst_append_plain (vars : Vars) {a : Str} (ha : '$' ∉ a) (s : Str) :
    subst vars (a ++ s) = a ++ subst vars s := by
  rw [subst_eq, pieces_plain_append ha, List.flatMap_append, ← subst_eq]
  congr 1
  clear ha
  induction a with
  | nil => rfl
  | cons c a ih => rw [List.map_cons, List.flatMap_cons, ih]; rfl

@[simp] theorem subst_nil (vars : Vars) : subst vars [] = [] := rfl

/-- **A text without a dollar sign stands for itself.** -/
theorem subst_plain (vars : Vars) {s : Str} (hs : '$' ∉ s) : subst vars s = s := by
  simpa using subst_append_plain vars hs []

/-- What a reference to `x` stands for. -/
def ref (vars : Vars) (x : Str) : Str := Piece.text vars subst (.var x)

theorem piecesFrom_name {x : Str} (hx : ∀ c ∈ x, isNameChar c = true) (w s : Str) :
    piecesFrom (.name w) (x ++ s) = piecesFrom (.name (w ++ x)) s := by
  induction x generalizing w with
  | nil => simp
  | cons c x ih =>
      rw [List.cons_append, piecesFrom, if_pos (hx c List.mem_cons_self),
        ih fun d hd => hx d (List.mem_cons_of_mem _ hd)]
      simp

/-- The pieces of `$NAME` and the plain text behind it. -/
theorem pieces_var {c : Char} {x s : Str} (hc : isNameStart c = true)
    (hx : ∀ d ∈ x, isNameChar d = true) (hs : ∀ d ∈ s.head?, isNameChar d = false ∧ d ≠ '$') :
    pieces ('$' :: c :: (x ++ s)) = .var (c :: x) :: pieces s := by
  have hstart : c ≠ '$' ∧ c ≠ '(' ∧ c ≠ ')' ∧ c ≠ '{' := by
    refine ⟨?_, ?_, ?_, ?_⟩ <;> (rintro rfl; exact absurd hc (by decide))
  have hname : piecesFrom (.name (c :: x)) s = .var (c :: x) :: pieces s := by
    cases s with
    | nil => rfl
    | cons d s =>
        obtain ⟨hd, hd'⟩ := hs d rfl
        rw [piecesFrom, if_neg (by simp [hd]), if_neg hd', pieces, piecesFrom, if_neg hd']
  rw [pieces, piecesFrom, if_pos rfl, piecesFrom, if_neg hstart.1,
    if_neg (by simp [hstart.2.1, hstart.2.2.1]), if_neg hstart.2.2.2, if_pos hc,
    piecesFrom_name hx, List.singleton_append, hname]

/-- **A reference, and the text behind it.** -/
theorem subst_var (vars : Vars) {c : Char} {x s : Str} (hc : isNameStart c = true)
    (hx : ∀ d ∈ x, isNameChar d = true) (hs : ∀ d ∈ s.head?, isNameChar d = false ∧ d ≠ '$') :
    subst vars ('$' :: c :: (x ++ s)) = ref vars (c :: x) ++ subst vars s := by
  rw [subst_eq, pieces_var hc hx hs, List.flatMap_cons, ← subst_eq]
  rfl

theorem ref_eq {vars : Vars} {x s : Str} (h : vars.get? x = some (.str s)) :
    ref vars x = subst (vars.erase x) s := by
  rw [ref, Piece.text, h]
  rfl

theorem ref_str {vars : Vars} {x s : Str} (h : vars.get? x = some (.str s)) (hs : '$' ∉ s) :
    ref vars x = s := by
  rw [ref_eq h, subst_plain _ hs]

theorem ref_node {vars : Vars} {x path : Str} (h : vars.get? x = some (.node path)) :
    ref vars x = '"' :: (path ++ ['"']) := by
  rw [ref, Piece.text, h]
  rfl

theorem ref_list {vars : Vars} {x : Str} {l : List Str} (h : vars.get? x = some (.list l)) :
    ref vars x = join " " (l.map (subst (vars.erase x))) := by
  rw [ref, Piece.text, h]
  rfl

/-! ### Command templates -/

/-- A part of a template: plain text, or a reference `$NAME`. -/
def isPart : Str → Bool
  | '$' :: c :: x => isNameStart c && x.all isNameChar
  | w => decide ('$' ∉ w)

/-- What a part stands for. -/
def partText (vars : Vars) : Str → Str
  | '$' :: x => ref vars x
  | w => w

theorem partText_plain (vars : Vars) {w : Str} (hw : '$' ∉ w) : partText vars w = w := by
  cases w with
  | nil => rfl
  | cons c w =>
      rw [partText.eq_2 vars (c :: w) fun x h => hw (by rw [h]; exact List.mem_cons_self)]

/-- A part stands for its text, also with a space behind it. -/
theorem subst_part (vars : Vars) {w : Str} (hw : isPart w = true) (s : Str)
    (hs : s.head? = none ∨ s.head? = some ' ') :
    subst vars (w ++ s) = partText vars w ++ subst vars s := by
  have hend : ∀ d ∈ s.head?, isNameChar d = false ∧ d ≠ '$' := by
    rcases hs with hs | hs <;> simp only [hs] <;> decide
  rw [isPart.eq_def] at hw
  split at hw
  case h_1 c x =>
      rw [Bool.and_eq_true, List.all_eq_true] at hw
      exact subst_var vars hw.1 hw.2 hend
  case h_2 hne =>
      have hplain : '$' ∉ w := of_decide_eq_true hw
      rw [subst_append_plain vars hplain, partText_plain vars hplain]

/-- **A template is substituted part by part.** -/
theorem subst_join (vars : Vars) : ∀ {ws : List Str}, (∀ w ∈ ws, isPart w = true) →
    subst vars (join " " ws) = join " " (ws.map (partText vars))
  | [], _ => rfl
  | [w], h => by
      have hw := subst_part vars (h w List.mem_cons_self) [] (.inl rfl)
      simpa using hw
  | w :: v :: ws, h => by
      have ih : subst vars (join " " (v :: ws)) = join " " ((v :: ws).map (partText vars)) :=
        subst_join vars fun u hu => h u (List.mem_cons_of_mem w hu)
      have hw := subst_part vars (h w List.mem_cons_self) (' ' :: join " " (v :: ws)) (.inr rfl)
      have hsp := subst_append_plain vars (a := [' ']) (by decide) (join " " (v :: ws))
      rw [List.singleton_append] at hsp
      rw [hsp, ih] at hw
      simpa using hw

theorem isPart_plain {w : Str} (hw : '$' ∉ w) : isPart w = true := by
  rw [isPart.eq_2 w fun c x h => hw (by rw [h]; exact List.mem_cons_self)]
  exact decide_eq_true hw

/-- A reference, with plain parts behind it. -/
theorem subst_command (vars : Vars) {x : Str} (hx : isPart ('$' :: x) = true) {parts : List Str}
    (hparts : ∀ w ∈ parts, '$' ∉ w) :
    subst vars (join " " (('$' :: x) :: parts)) = join " " (ref vars x :: parts) := by
  have hmap : parts.map (partText vars) = parts := by
    conv_rhs => rw [← List.map_id parts]
    exact List.map_congr_left fun w hw => partText_plain vars (hparts w hw)
  have hall : ∀ w ∈ ('$' :: x) :: parts, isPart w = true := by
    intro w hw
    rcases List.mem_cons.mp hw with rfl | hw
    · exact hx
    · exact isPart_plain (hparts w hw)
  rw [subst_join vars hall, List.map_cons, hmap]
  rfl

/-- A reference alone. -/
theorem subst_ref (vars : Vars) (x : Str) (hx : isPart ('$' :: x) = true) :
    subst vars ('$' :: x) = ref vars x :=
  @subst_command vars x hx [] (by simp)

/-- A reference to a text without references stands for that text. -/
theorem subst_stored {vars : Vars} (x : Str) (hx : isPart ('$' :: x) = true) {s : Str}
    (h : vars.get? x = some (.str s)) (hs : '$' ∉ s) : subst vars ('$' :: x) = s :=
  (subst_ref vars x hx).trans (ref_str h hs)

/-! ### What a substitution depends on -/

/-- The name a piece refers to. -/
def Piece.name? : Piece → Option Str
  | .char _ => none
  | .var x => some x

/-- The names a text refers to. -/
def names (s : Str) : List Str := (pieces s).filterMap Piece.name?

/-- The texts of a value that are substituted in turn. -/
def Value.texts : Value → List Str
  | .str s => [s]
  | .list l => l
  | .node _ | .dict _ | .action _ => []

/-- The names of `ns` have values that refer to names of `ns` only. -/
def Closed (vars : Vars) (ns : List Str) : Prop :=
  ∀ x ∈ ns, ∀ v ∈ vars.get? x, ∀ s ∈ v.texts, ∀ y ∈ names s, y ∈ ns

instance instDecidableClosed (vars : Vars) (ns : List Str) : Decidable (Closed vars ns) :=
  inferInstanceAs (Decidable (∀ x ∈ ns, ∀ v ∈ vars.get? x, ∀ s ∈ v.texts, ∀ y ∈ names s, y ∈ ns))

theorem Closed.erase {vars : Vars} {ns : List Str} (h : Closed vars ns) (x : Str) :
    Closed (vars.erase x) ns := by
  intro y hy v hv
  rw [Dict.get?_erase] at hv
  split at hv
  case isTrue => cases hv
  case isFalse => exact h y hy v hv

theorem Value.text_congr {f g : Str → Str} {v : Value} (h : ∀ s ∈ v.texts, f s = g s) :
    v.text f = v.text g := by
  cases v with
  | str s => exact h s List.mem_cons_self
  | list l => exact congrArg (join " ") (List.map_congr_left h)
  | node | dict | action => rfl

theorem expand_congr {ns : List Str} (n : ℕ) {vars vars' : Vars} (hclosed : Closed vars ns)
    (hagree : ∀ x ∈ ns, vars'.get? x = vars.get? x) {s : Str} (hs : ∀ x ∈ names s, x ∈ ns) :
    expand n vars' s = expand n vars s := by
  induction n generalizing vars vars' s with
  | zero => rfl
  | succ n ih =>
      refine List.flatMap_congr fun p hp => ?_
      cases p with
      | char c => rfl
      | var x =>
          have hx : x ∈ ns := hs x (List.mem_filterMap.mpr ⟨_, hp, rfl⟩)
          simp only [Piece.text, hagree x hx]
          cases hget : vars.get? x with
          | none => rfl
          | some v =>
              -- below, the variable is hidden on both sides
              refine Value.text_congr fun s hs => ih (hclosed.erase x) (fun y hy => ?_)
                (hclosed x hx v hget s hs)
              rw [Dict.get?_erase, Dict.get?_erase, hagree y hy]

/-- **A substitution depends on the names it reaches**, and on no others. -/
theorem subst_congr {ns : List Str} {vars vars' : Vars} (hclosed : Closed vars ns)
    (hagree : ∀ x ∈ ns, vars'.get? x = vars.get? x) {s : Str} (hs : ∀ x ∈ names s, x ∈ ns) :
    subst vars' s = subst vars s := by
  have hdepth : ∀ {vs : Vars}, vs.items.length ≤ vars.items.length + vars'.items.length →
      subst vs s = expand (vars.items.length + vars'.items.length + 1) vs s := fun h =>
    expand_depth (Nat.lt_succ_self _) (Nat.lt_succ_of_le h) s
  rw [hdepth (Nat.le_add_left _ _), hdepth (Nat.le_add_right _ _)]
  exact expand_congr _ hclosed hagree hs

example : subst (.ofList [("A", .str "x$B".toList), ("B", .list ["y".toList, "$A".toList])])
    "<$A>".toList = "<xy >".toList := by decide

end Scons
