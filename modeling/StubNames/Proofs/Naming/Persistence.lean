import StubNames.Proofs.Naming.Agreement
/-!
# What later declarations leave alone

A builder goes on with its graph and never takes back what it has said of it.  A handle leads to the
same entity, which may list more children; a full name leads to the same handle; the listing goes
on where it stopped; and a name that was there, or the reason why there was none, stays.
-/

namespace StubNames

open Schema (Builder Declaration Entity Graph Handle Kind)

/-- Whatever is declared after a run, and whether it is refused or not, everything that the run has
brought about stays as it is. -/
theorem undisturbed_run (number : Nat) (before after : List Declaration) :
    let b := (Builder.start number).run before
    let b' := b.run after
    (∀ h ∈ (Builder.start number).issued before,
      (∃ e e', b.graph.get? h = some e ∧ b'.graph.get? h = some e' ∧ e.Grows e') ∧
      ∀ convention, Resolver.Concurs ⟨b.build, convention⟩ ⟨b'.build, convention⟩ h h) ∧
    (∀ fullName h, b.graph.lookup fullName = some h → b'.graph.lookup fullName = some h) ∧
    b.graph.toList.map Prod.fst <+: b'.graph.toList.map Prod.fst := by
  intro b b'
  have hb : b.Valid := Builder.valid_run_start number before
  have hb' : b'.Valid := hb.run after
  have hext : b.graph.Extends b'.graph := hb.extends_run after
  refine ⟨fun h hissued => ?_, fun fullName h => hext.lookup_eq_some hb.indexed hb'.indexed,
    hb.toList_prefix_run after⟩
  rw [Builder.issued_start, Graph.mem_handles_iff] at hissued
  obtain ⟨e, he⟩ := Option.isSome_iff_exists.1 hissued
  obtain ⟨e', he', hgrows⟩ := hext.grows h e he
  refine ⟨⟨e, e', he, he', hgrows⟩, fun convention => ?_⟩
  have hagrees : b.graph.Agrees b'.graph h h e e' :=
    (Graph.Extends.refl b.graph).agrees hext hb.wellFormed (hb.wellFormed h e he) he (.refl e) he'
      hgrows
  exact Resolver.concurs_of_agrees hb.wellFormed hb'.wellFormed hagrees convention

def replyDeclarations : List Declaration :=
  [.package "mail", .file ⟨1, 0⟩ "mail.proto", .member .message ⟨1, 1⟩ "reply",
    .member .oneof ⟨1, 2⟩ "body", .oneofField ⟨1, 3⟩ "text"]

/-- A second member is listed by the message and by the group, and the first one again is
refused. -/
def laterDeclarations : List Declaration :=
  [.oneofField ⟨1, 3⟩ "image", .oneofField ⟨1, 3⟩ "text", .member .message ⟨1, 2⟩ "quote"]

theorem undisturbed_run_reply :
    let b := (Builder.start 1).run replyDeclarations
    let b' := b.run laterDeclarations
    b.replies laterDeclarations =
        [.ok ⟨1, 5⟩, .error (.duplicate ".mail.reply.text"), .ok ⟨1, 6⟩] ∧
      (∃ e e', b.graph.get? ⟨1, 2⟩ = some e ∧ b'.graph.get? ⟨1, 2⟩ = some e' ∧ e.Grows e' ∧
        e.children = [⟨1, 3⟩, ⟨1, 4⟩] ∧ e'.children = [⟨1, 3⟩, ⟨1, 4⟩, ⟨1, 5⟩, ⟨1, 6⟩]) ∧
      b'.graph.lookup ".mail.reply.text" = some ⟨1, 4⟩ ∧
      (Resolver.mk b'.build .go).oneofOption ⟨1, 4⟩ = .ok ⟨"Reply_Text"⟩ := by
  intro b b'
  obtain ⟨hhandles, hlookup, -⟩ := undisturbed_run 1 replyDeclarations laterDeclarations
  refine ⟨by decide +kernel, ?_, ?_, ?_⟩
  · obtain ⟨⟨e, e', he, he', hgrows⟩, -⟩ := hhandles ⟨1, 2⟩ (by decide +kernel)
    have hchildren : (b.graph.get? ⟨1, 2⟩).map Entity.children = some [⟨1, 3⟩, ⟨1, 4⟩] := by
      decide +kernel
    have hchildren' : (b'.graph.get? ⟨1, 2⟩).map Entity.children =
        some [⟨1, 3⟩, ⟨1, 4⟩, ⟨1, 5⟩, ⟨1, 6⟩] := by
      decide +kernel
    rw [he, Option.map_some, Option.some.injEq] at hchildren
    rw [he', Option.map_some, Option.some.injEq] at hchildren'
    exact ⟨e, e', he, he', hgrows, hchildren, hchildren'⟩
  · exact hlookup _ _ (by decide +kernel)
  · obtain ⟨-, hconcurs⟩ := hhandles ⟨1, 4⟩ (by decide +kernel)
    rw [← (hconcurs .go).oneofOption]
    decide +kernel

end StubNames
