import Mathlib.Tactic

/-!
# Programs that make calls

A program is a finite tree: it ends with a result, or makes a request and goes on with the reply. Whoever
answers may take all requests so far into account. `run` gives the requests that were made and the
result.
-/

namespace Macify.Lib

inductive Script (Req Rep : Type*) where
  | done (reply : Rep)
  | call (request : Req) (next : Rep → Script Req Rep)

namespace Script

variable {Req Rep : Type*} {answer : List Req → Rep} {seen : List Req} {request : Req}

def pass (request : Req) : Script Req Rep := .call request .done

def run (answer : List Req → Rep) : List Req → Script Req Rep → List Req × Rep
  | seen, .done reply => (seen, reply)
  | seen, .call request next => run answer (seen ++ [request]) (next (answer (seen ++ [request])))

def transcript (answer : List Req → Rep) : List Req → Script Req Rep → List (Req × Rep)
  | _, .done _ => []
  | seen, .call request next =>
    (request, answer (seen ++ [request])) ::
      transcript answer (seen ++ [request]) (next (answer (seen ++ [request])))

lemma run_requests (p : Script Req Rep) :
    (p.run answer seen).1 = seen ++ (p.transcript answer seen).map Prod.fst := by
  induction p generalizing seen with
  | done reply => exact (List.append_nil seen).symm
  | call request next ih => rw [run, ih, transcript, List.map_cons, List.append_assoc, List.singleton_append]

lemma mem_run (p : Script Req Rep) (mem : request ∈ seen) : request ∈ (p.run answer seen).1 := by
  rw [run_requests]
  exact List.mem_append_left _ mem

lemma mem_run_call {next : Rep → Script Req Rep} : request ∈ ((Script.call request next).run answer seen).1 := by
  rw [run]
  exact mem_run _ (List.mem_append_right _ List.mem_cons_self)

end Script

end Macify.Lib
