import Devnet.Proofs.Probe.Classification
import Devnet.Proofs.Text.Faults
import Devnet.Wallet.Script

set_option autoImplicit false

namespace Devnet.Probe

open Http (Answer)

theorem strict_and_lossy_agree (probe : EndpointProbe) (path : String) (url : Url) (answer : Answer) (bytes : Bytes)
    (command : Command) (machine : Machine) (exit : Exit) (joined : probe.base.join path = .ok url)
    (answers : (probe.client.get probe.timeout url).result = some (.ok answer))
    (successful : 200 ≤ answer.status ∧ answer.status ≤ 299) (complete : answer.bytes = some (.ok bytes))
    (started : command.spawn machine = .ok exit) (captured : exit.stdout = bytes) :
    ∃ output, (command.run machine).1 = .ok output ∧
      ((∃ text, (fetch probe path).outcome = some (.ok text) ∧ output.stdout = text ∧ Encodes text bytes) ∨
        ∃ cause, (fetch probe path).outcome = some (.error (.decode url cause)) ∧
          Utf8.Faulty bytes output.stdout cause) := by
  refine ⟨_, congrArg Prod.fst (command.run_of_exit machine exit started), ?_⟩
  have outcome : (fetch probe path).outcome = some (decoded url bytes) := by
    rw [(fetch_joined probe path url joined).1, answers, resultOutcome, outcome_of_success url answer successful, complete]
  rw [outcome, captured, decoded]
  cases decoding : Utf8.decode bytes with
  | ok text => exact .inl ⟨text, rfl, Utf8.lossy_of_decoded _ text decoding, (decode_encodes _ text).mp decoding⟩
  | error cause => exact .inr ⟨cause, rfl, Utf8.decode_faulty _ cause decoding⟩

def brokenBytes : Bytes := [0x61, 0xF0, 0x9F, 0x98, 0x28, 0xE2, 0x82]

def brokenNode : Http.Node := ⟨[⟨"/a", .respond { status := 203, location := none, body := .whole brokenBytes }⟩]⟩

def brokenUrl : Url := ⟨"http", some ⟨"", "", .name "h", none⟩, "/a", none, none⟩

def brokenProbe : EndpointProbe := ⟨.scripted brokenNode.network, none, brokenUrl⟩

theorem strict_and_lossy_agree_broken :
    Utf8.decodeLossy brokenBytes = "a\uFFFD(\uFFFD" ∧ Utf8.decode brokenBytes = .error ⟨1, some 3⟩ ∧
      ∃ output, ((⟨"fakewallet", []⟩ : Command).run (Script.machine ⟨false, brokenBytes, [], 1, 3⟩)).1 = .ok output ∧
        ((∃ text, (fetch brokenProbe "a").outcome = some (.ok text) ∧ output.stdout = text ∧
          Encodes text brokenBytes) ∨
        ∃ cause, (fetch brokenProbe "a").outcome = some (.error (.decode brokenUrl cause)) ∧
          Utf8.Faulty brokenBytes output.stdout cause) := by
  have joined : brokenProbe.base.join "a" = .ok brokenUrl := by decide +kernel
  have answers : (brokenProbe.client.get brokenProbe.timeout brokenUrl).result =
      some (.ok ⟨203, some (.ok brokenBytes)⟩) := by rfl
  have started : (⟨"fakewallet", []⟩ : Command).spawn (Script.machine ⟨false, brokenBytes, [], 1, 3⟩) =
      .ok ⟨3, brokenBytes, []⟩ := by decide +kernel
  exact ⟨by decide +kernel, by decide +kernel,
    strict_and_lossy_agree _ _ _ _ _ _ _ _ joined answers (by decide) rfl started rfl⟩

end Devnet.Probe
