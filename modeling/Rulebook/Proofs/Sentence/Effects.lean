import Rulebook.Proofs.Sentence.Operators
import Rulebook.Proofs.Sentence.Parse
import Rulebook.Proofs.Tree.Evaluation

/-!
# Chains of effects

A condition and a chain of effects behind it, from the items of the sentence to the fields after it. The word between
two effects is also the one between two questions, but a chain breaks off nowhere: `effects_follow_the_condition`.
-/

namespace Rulebook

/-- What is written to a field: a literal, or what another field holds. -/
inductive Source where
  | literal (v : Value)
  | field (name : String)

namespace Source

def tree : Source → Tree
  | literal v => .value v
  | field name => .field name

def value (live : Fields) : Source → Value
  | literal v => v
  | field name => (live.get? name).getD .null

theorem keyword?_tree (source : Source) : source.tree.keyword? = none := by cases source <;> rfl

theorem eval_tree (source : Source) (prior live : Fields) :
    (source.tree.eval prior .current).runOn live = (.ok (source.value live), live) := by
  cases source with
  | literal v => rfl
  | field name => exact Eval.runOn_read prior .current name live

end Source

inductive Effect where
  | write (target : String) (source : Source)
  | step (target : String)

namespace Effect

open Item

def target : Effect → String
  | write name _ | step name => name

def items : Effect → List Item
  | write name source => [pending .set, operand (.field name), operand source.tree]
  | step name => [pending .inc, operand (.field name)]

def tree : Effect → Tree
  | write name source => .assign (.field name) source.tree
  | step name => .increment (.field name) .placeholder

/-- What the effect writes over the live fields. -/
def value (live : Fields) : Effect → Value
  | write _ source => source.value live
  | step name => ((live.get? name).getD .null).incremented

def apply (live : Fields) (e : Effect) : Fields := live.insert e.target (e.value live)

def chainItems (e : Effect) (es : List Effect) : List Item :=
  e.items ++ es.flatMap fun next => pending .and :: next.items

/-- The tree of a chain. It groups to the left. -/
def chain (e : Effect) (es : List Effect) : Tree := es.foldl (fun t next => .both t next.tree) e.tree

/-! ### Reading a chain -/

theorem phrase {ks : List Keyword} (set : .set ∈ ks) (inc : .inc ∈ ks) (e : Effect) : Phrase ks e.items e.tree := by
  cases e with
  | write name source =>
    apply phrase_of_clause set
    intro tighter
    exact .write rfl (phrase_leaf source.keyword?_tree)
  | step name =>
    apply phrase_of_clause inc
    intro tighter
    exact .step rfl

theorem clause_chain {Tighter : List Item → Tree → Prop} (phrases : ∀ e : Effect, Tighter e.items e.tree)
    {run : List Item} {t : Tree} (clause : Clause .and Tighter run t) (es : List Effect) :
    Clause .and Tighter (run ++ es.flatMap fun next => pending .and :: next.items)
      (es.foldl (fun t next => .both t next.tree) t) := by
  -- The chain groups to the left: what is read so far is the left operand of the next link.
  induction es generalizing run t with
  | nil => rwa [List.flatMap_nil, List.append_nil]
  | cons next es ih =>
    rw [List.flatMap_cons, ← List.append_assoc]
    exact ih (.chain rfl clause (phrases next))

end Effect

namespace Item

open Effect

variable {condition : List Item} {c : Tree}

theorem Sentence.phrase (sentence : Sentence condition c) (free : pending .thenDo ∉ condition) :
    Phrase Keyword.levels.tail condition c := by
  have clause : Clause .thenDo (Phrase Keyword.levels.tail) condition c := sentence
  -- Only a clause with the weakest operator in it is more than a phrase of the others.
  cases clause with
  | tighter phrase => exact phrase
  | reused reused => rcases reused.form with form | form | form <;> cases form
  | between _ _ _ => exact (free (List.mem_append_right _ List.mem_cons_self)).elim
  | chain form _ _ => cases form
  | behind form _ => cases form
  | step form => cases form
  | write form _ => cases form

theorem Sentence.followed (sentence : Sentence condition c) (free : pending .thenDo ∉ condition) (e : Effect)
    (es : List Effect) : Sentence (condition ++ pending .thenDo :: chainItems e es) (.when c (chain e es)) := by
  have phrases : ∀ e : Effect, Phrase (Keyword.levels.drop 3) e.items e.tree :=
    Effect.phrase (by decide) (by decide)
  have chained : Phrase Keyword.levels.tail (chainItems e es) (chain e es) :=
    .tighter (clause_chain phrases (.tighter (phrases e)) es)
  exact Clause.between rfl (sentence.phrase free) chained

end Item

namespace Effect

/-! ### Carrying a chain out -/

variable {e : Effect} {es : List Effect} {prior live after : Fields}

theorem isEffect_tree (e : Effect) : e.tree.isEffect = true := by cases e <;> rfl

theorem names_apply (present : e.target ∈ live.names) : (e.apply live).names = live.names :=
  Table.names_insert_of_mem (e.value live) present

theorem eval_tree (prior : Fields) (present : e.target ∈ live.names) :
    (e.tree.eval prior .current).runOn live = (.ok (e.value live), e.apply live) := by
  cases e with
  | write name source =>
    have here : name ∈ live.names := present
    change (source.tree.eval prior .current >>= fun v => Eval.write name v >>= fun _ => pure v).runOn live = _
    rw [Eval.runOn_bind_ok (source.eval_tree prior live), Eval.runOn_bind_ok (Eval.runOn_write _ here)]
    rfl
  | step name =>
    have here : name ∈ live.names := present
    change (Eval.read prior .current name >>= fun v => Eval.write name v.incremented >>= fun _ =>
      pure v.incremented).runOn live = _
    rw [Eval.runOn_bind_ok (Eval.runOn_read prior .current name live), Eval.runOn_bind_ok (Eval.runOn_write _ here)]
    rfl

/-- What an effect has left is what the next one finds, whatever the value of the first. -/
theorem eval_both {t : Tree} {v : Value} (effect : t.isEffect = true)
    (ran : (t.eval prior .current).runOn live = (.ok v, after)) (present : e.target ∈ after.names) :
    ((Tree.both t e.tree).eval prior .current).runOn live = (.ok .null, e.apply after) := by
  rw [Tree.eval, if_pos effect, Eval.runOn_bind_ok ran, Eval.runOn_bind_ok (eval_tree prior present)]
  rfl

theorem eval_links {t : Tree} {v : Value} (effect : t.isEffect = true)
    (ran : (t.eval prior .current).runOn live = (.ok v, after)) (present : ∀ e ∈ es, e.target ∈ after.names) :
    ∃ w, ((es.foldl (fun t next => .both t next.tree) t).eval prior .current).runOn live =
      (.ok w, es.foldl apply after) := by
  induction es generalizing t v after with
  | nil => exact ⟨v, ran⟩
  | cons next es ih =>
    have here := present next List.mem_cons_self
    apply ih (t := .both t next.tree) effect (eval_both effect ran here)
    intro e member
    rw [names_apply here]
    exact present e (List.mem_cons_of_mem _ member)

theorem eval_chain (prior : Fields) (present : ∀ e' ∈ e :: es, e'.target ∈ live.names) :
    ∃ w, ((chain e es).eval prior .current).runOn live = (.ok w, (e :: es).foldl apply live) := by
  have here := present e List.mem_cons_self
  apply eval_links e.isEffect_tree (eval_tree prior here)
  intro e' member
  rw [names_apply here]
  exact present e' (List.mem_cons_of_mem _ member)

end Effect

theorem Tree.runOn_when {c t : Tree} {prior live after : Fields} {view : View} {v : Value}
    (ran : (c.eval prior view).runOn live = (.ok v, after)) :
    ((Tree.when c t).eval prior view).runOn live =
      if v.truthy then (t.eval prior view).runOn after else (.ok .null, after) := by
  rw [Tree.eval, Eval.runOn_bind_ok ran]
  split <;> rfl

/-- The items of a chain of effects behind a condition make the tree in which the chain groups to the left. Over live
fields with all targets, evaluation carries out every effect in turn if the condition is true, and else leaves the
fields as they are. -/
theorem effects_follow_the_condition {condition : List Item} {c : Tree} (plain : Item.Plain condition)
    (free : .pending .thenDo ∉ condition) (made : Item.assemble roundLimit (Item.arrange condition) = .ok c)
    (passive : c.passive = true) (e : Effect) (es : List Effect) :
    let items := condition ++ .pending .thenDo :: Effect.chainItems e es
    let t := Tree.when c (Effect.chain e es)
    Item.assemble roundLimit (Item.arrange items) = .ok t ∧
      (∀ (v : Vocabulary) (sentence : String), v.items (sentenceWords sentence) = items →
        v.compile sentence = .ok t) ∧
      ∀ prior live : Fields, (∀ next ∈ e :: es, next.target ∈ live.names) →
        let asked := ((c.eval prior .current).runOn live).1
        let ran := (t.eval prior .current).runOn live
        (∀ v, asked = .ok v → v.truthy = true → ∃ w, ran = (.ok w, (e :: es).foldl Effect.apply live)) ∧
          (∀ v, asked = .ok v → v.truthy = false → ran = (.ok .null, live)) ∧
          ∀ x, asked = .error x → ran = (.error x, live) := by
  intro items t
  have sentence : Item.Sentence items t :=
    ((Item.assemble_arrange_ok_iff (by decide) plain).mp made).followed free e es
  refine ⟨(Item.assemble_arrange_ok_iff (by decide) sentence.plain).mpr sentence, ?_, ?_⟩
  · intro v text reads
    exact Vocabulary.parse_ok_iff.mpr (reads ▸ sentence)
  · intro prior live present asked ran
    rcases judged : (c.eval prior .current).runOn live with ⟨outcome, after⟩
    obtain rfl := Tree.eq_of_passive passive judged
    have answer : asked = outcome := congrArg Prod.fst judged
    refine ⟨fun v ok holds => ?_, fun v ok fails => ?_, fun x error => ?_⟩
    · rw [answer.symm.trans ok] at judged
      have next := Tree.runOn_when (t := Effect.chain e es) judged
      rw [if_pos holds] at next
      rw [show ran = _ from next]
      exact Effect.eval_chain prior present
    · rw [answer.symm.trans ok] at judged
      have next := Tree.runOn_when (t := Effect.chain e es) judged
      rwa [fails] at next
    · rw [answer.symm.trans error] at judged
      exact Eval.runOn_bind_error judged

/-- The second effect writes a value that is false, and the third one reads it. -/
theorem reset_runs_whole :
    let v : Vocabulary := { fields := .ofList [("x", "x"), ("y", "y"), ("z", "z")] }
    let live : Fields := .ofList [("x", .number .zero), ("y", .text "on"), ("z", .number .one)]
    ∃ t w, v.compile "if x is 0 then inc z and set y false and set x y and inc x" = .ok t ∧
      (t.eval live .current).runOn live =
        (.ok w, .ofList [("x", .number .one), ("y", .bool false), ("z", .number Number.one.succ)]) := by
  intro v live
  have made : Item.assemble roundLimit (Item.arrange (v.items ["x", "is", "0"])) =
      .ok (.compare .equal (.field "x") (.value (.number .zero))) := by decide
  obtain ⟨_, compiles, runs⟩ := effects_follow_the_condition (v.plain_items _) (by decide) made rfl
    (.step "z") [.write "y" (.literal (.bool false)), .write "x" (.field "y"), .step "x"]
  obtain ⟨whole, _, _⟩ := runs live live (by decide)
  obtain ⟨w, ran⟩ := whole (.bool true) (by decide) rfl
  exact ⟨_, w, compiles v _ (by decide), ran.trans (congrArg (Prod.mk _) (by decide))⟩

end Rulebook
