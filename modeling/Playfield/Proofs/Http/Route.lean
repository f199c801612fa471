import Mathlib.Data.List.TakeWhile
import Playfield.Http.Exchange
import Playfield.Proofs.Http.Percent

/-! Hardware numbers in paths. A request for the state of a number names it by a percent-encoding, as the
last segment of its path, and becomes the call that reads the state, unless the segment is one of the words
that have routes of their own. -/
namespace Playfield

/-- Asks for the state of a number. -/
def Call.state : Kind → String → Call
  | .switch => .switchState
  | .coil => .coilState
  | .light => .lightState

namespace Http

open Text.Utf8 (encode)

section Parts

variable {separator c : Char} {cs rest : List Char}

theorem splitAt_of_not_mem (h : separator ∉ cs) : splitAt separator cs = [cs] := by
  induction cs with
  | nil => rfl
  | cons c cs ih =>
      obtain ⟨hc, hcs⟩ := List.ne_and_not_mem_of_not_mem_cons h
      simp only [splitAt, ih hcs, if_neg (Ne.symm hc)]

theorem splitAt_append (h : separator ∉ cs) :
    splitAt separator (cs ++ separator :: rest) = cs :: splitAt separator rest := by
  have hsplit : ∃ part parts, splitAt separator rest = part :: parts := by
    cases rest with
    | nil => exact ⟨[], [], rfl⟩
    | cons c rest =>
        simp only [splitAt]
        cases splitAt separator rest with
        | nil => exact ⟨[c], [], rfl⟩
        | cons part parts =>
            by_cases hc : c = separator
            · exact ⟨[], part :: parts, if_pos hc⟩
            · exact ⟨c :: part, parts, if_neg hc⟩
  obtain ⟨part, parts, hrest⟩ := hsplit
  induction cs with
  | nil => simp only [List.nil_append, splitAt, hrest, if_pos]
  | cons c cs ih =>
      obtain ⟨hc, hcs⟩ := List.ne_and_not_mem_of_not_mem_cons h
      simp only [List.cons_append, splitAt, ih hcs, if_neg (Ne.symm hc)]

theorem cutAt_of_not_mem (h : separator ∉ cs) : cutAt separator cs = (cs, none) := by
  have hall : cs.takeWhile (· ≠ separator) = cs :=
    List.takeWhile_eq_self_iff.mpr fun c hc => decide_eq_true fun heq => h (heq ▸ hc)
  simp only [cutAt, hall, Nat.lt_irrefl, if_false]

end Parts

namespace Route

/-- The word for all numbers of a kind in paths. -/
def collection : Kind → String
  | .switch => "switches"
  | .coil => "coils"
  | .light => "lights"

/-- The words that have routes of their own where a number may stand. -/
def fixedWords : Kind → List String
  | .switch => ["changes", "transitions"]
  | .coil => ["pulse", "enable", "disable", "disable_all"]
  | .light => ["fade", "rgb", "single"]

/-- The route to the state of a number. -/
def state : Kind → List Char → Route
  | .switch => .switch
  | .coil => .coil
  | .light => .light

theorem ofSegments?_state {kind : Kind} {word : String} (h : word ∉ fixedWords kind) :
    ofSegments? [collection kind, word] = some (state kind word.toList) := by
  cases kind with
  | switch | coil | light =>
      simp only [fixedWords, List.mem_cons, List.not_mem_nil, or_false, not_or] at h
      simp [ofSegments?, collection, state, h]

/-- The path of a segment among the numbers of a kind. -/
def path (kind : Kind) (cs : List Char) : List Char :=
  "/api/".toList ++ (collection kind).toList ++ '/' :: cs

theorem ofPath?_state {kind : Kind} {cs : List Char} (hne : cs ≠ []) (hslash : '/' ∉ cs)
    (hfixed : String.ofList cs ∉ fixedWords kind) : ofPath? (path kind cs) = some (state kind cs) := by
  have hparts : splitAt '/' (path kind cs) = [[], "api".toList, (collection kind).toList, cs] := by
    have hpath : path kind cs =
        [] ++ '/' :: ("api".toList ++ '/' :: ((collection kind).toList ++ '/' :: cs)) := by
      cases kind <;> rfl
    have hcollection : '/' ∉ (collection kind).toList := by cases kind <;> decide
    rw [hpath, splitAt_append (by decide), splitAt_append (by decide), splitAt_append hcollection,
      splitAt_of_not_mem hslash]
  have hword : String.ofList cs ≠ "" := by
    intro h
    exact hne (by simpa using congrArg String.toList h)
  have hstate := ofSegments?_state hfixed
  rw [String.toList_ofList] at hstate
  -- The segment is not empty and no fixed word, so what is left is the route with a number.
  rw [ofPath?, hparts]
  cases kind <;> simpa [collection, hword] using hstate

end Route

/-- A request for the state of a number, which is percent-encoded in some way. -/
structure Request.Reads (r : Request) {kind : Kind} (n : Number kind) (cs : List Char) : Prop where
  method : r.method = .get
  target : r.target.toList = Route.path kind cs
  spells : Percent.Spells cs (encode n.text.toList)

namespace Request.Reads

variable {r : Request} {kind : Kind} {n : Number kind} {cs : List Char}

theorem not_mem (h : r.Reads n cs) {c : Char} (hplain : Percent.isPlain c = false) (hc : c ≠ '%') :
    c ∉ cs := by
  intro hmem
  rcases h.spells.isPlain_or hmem with hp | hp
  · cases hplain.symm.trans hp
  · exact hc hp

theorem ne_nil (h : r.Reads n cs) : cs ≠ [] := by
  rintro rfl
  have htext : "" = n.text := Option.some.inj h.spells.segment?
  have hblank : Text.isBlank "" = false := htext ▸ n.not_blank
  cases hblank

/-- Nothing in the target ends its path before the end. -/
theorem not_mem_path (h : r.Reads n cs) {c : Char} (hplain : Percent.isPlain c = false) (hc : c ≠ '%')
    (hslash : c ≠ '/') : c ∉ Route.path kind cs := by
  have hfront : ("/api/".toList ++ (Route.collection kind).toList).all
      (fun d => decide (d = '/') || Percent.isPlain d) = true := by
    cases kind <;> decide
  rw [Route.path, List.mem_append, List.mem_cons]
  rintro (hmem | hmem | hmem)
  · have hc' := List.all_eq_true.mp hfront c hmem
    simp [hslash, hplain] at hc'
  · exact hslash hmem
  · exact h.not_mem hplain hc hmem

theorem action (h : r.Reads n cs) (hfixed : String.ofList cs ∉ Route.fixedWords kind) :
    r.action = .call (.state kind n.text) true := by
  have htarget : ofTarget r.target.toList = Route.path kind cs := by
    rw [h.target]
    rfl
  have hfragment := cutAt_of_not_mem (h.not_mem_path (c := '#') (by decide) (by decide) (by decide))
  have hquery := cutAt_of_not_mem (h.not_mem_path (c := '?') (by decide) (by decide) (by decide))
  have hroute := Route.ofPath?_state h.ne_nil (h.not_mem (by decide) (by decide)) hfixed
  have hallows : (Route.state kind cs).allows .get = true := by cases kind <;> rfl
  have haction : (Route.state kind cs).action r [] = .call (.state kind n.text) true := by
    cases kind <;> simp only [Route.state, Route.action, pathCall, h.spells.segment?, Call.state]
  simp only [Request.action, htarget, hfragment, hquery, hroute, h.method, hallows, if_pos, Option.getD_none,
    haction]

end Request.Reads

/-- Every number can be asked for: if every byte is escaped, no fixed word can be meant. -/
theorem exists_reads {kind : Kind} (n : Number kind) : ∃ (r : Request) (cs : List Char),
    r.Reads n cs ∧ String.ofList cs ∉ Route.fixedWords kind := by
  let cs := Percent.escapes (encode n.text.toList)
  refine ⟨⟨.get, .ofList (Route.path kind cs), none, ""⟩, cs, ⟨rfl, ?_, Percent.spells_escapes _⟩, ?_⟩
  · exact String.toList_ofList
  · intro hmem
    have hwords : ∀ word ∈ Route.fixedWords kind, word.toList.head?.any (· ≠ '%') = true := by
      cases kind <;> decide
    have hhead := hwords _ hmem
    rw [String.toList_ofList] at hhead
    cases hbytes : encode n.text.toList with
    | nil => simp [cs, hbytes, Percent.escapes] at hhead
    | cons b bytes => simp [cs, hbytes, Percent.escapes] at hhead

end Http
end Playfield
