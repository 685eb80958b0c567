import DocAudit.Tree.Basic

/-!
The templates that come with the program: standards for development, to be copied into the docs.
-/

namespace DocAudit.Bundled

def codingStandards : String :=
  "# Coding Standards\n\n"
    ++ "**Version**: 1.0\n\n"
    ++ "## General\n\n"
    ++ "- Prefer small functions with a single responsibility.\n"
    ++ "- Name things by what they do, not how they do it.\n"
    ++ "- Keep modules free of unused code.\n\n"
    ++ "## Formatting\n\n"
    ++ "- Use the project formatter and linter before committing.\n"
    ++ "- Do not mix formatting changes with behavior changes in one commit.\n\n"
    ++ "## Error Handling\n\n"
    ++ "- Raise specific exceptions and handle them where recovery is possible.\n"
    ++ "- Never silence an exception without logging it.\n\n"
    ++ "## Related Documents\n\n"
    ++ "- [Setup](./SETUP.md)\n"
    ++ "- [Testing](./TESTING.md)\n"

def gitWorkflow : String :=
  "# Git Workflow\n\n"
    ++ "**Version**: 1.0\n\n"
    ++ "## Branches\n\n"
    ++ "- `main` is always releasable.\n"
    ++ "- Feature branches are named `feature/<short-description>`.\n"
    ++ "- Fix branches are named `fix/<short-description>`.\n\n"
    ++ "## Commits\n\n"
    ++ "- Write commit messages in the imperative mood.\n"
    ++ "- Keep each commit focused on one change.\n\n"
    ++ "## Pull Requests\n\n"
    ++ "- Link the requirement or issue the change addresses.\n"
    ++ "- Require at least one review before merging.\n\n"
    ++ "## Related Documents\n\n"
    ++ "- [Setup](./SETUP.md)\n"
    ++ "- [Testing](./TESTING.md)\n"

def setup : String :=
  "# Development Setup\n\n"
    ++ "**Version**: 1.0\n\n"
    ++ "## Prerequisites\n\n"
    ++ "- Git\n"
    ++ "- The language runtime and package manager listed in the project README\n\n"
    ++ "## Getting Started\n\n"
    ++ "1. Clone the repository.\n"
    ++ "2. Install dependencies.\n"
    ++ "3. Copy `.env.example` to `.env` and fill in local values.\n"
    ++ "4. Run the test suite to confirm the environment works.\n\n"
    ++ "## Related Documents\n\n"
    ++ "- [Coding Standards](./CODING-STANDARDS.md)\n"
    ++ "- [Testing](./TESTING.md)\n"
    ++ "- [Git Workflow](./GIT-WORKFLOW.md)\n"

def testing : String :=
  "# Testing\n\n"
    ++ "**Version**: 1.0\n\n"
    ++ "## Test Levels\n\n"
    ++ "| Prefix | Level | Scope |\n"
    ++ "|--------|-------|-------|\n"
    ++ "| TC-U | Unit | Single function or class |\n"
    ++ "| TC-I | Integration | Several components together |\n"
    ++ "| TC-E | E2E | Full user workflow |\n\n"
    ++ "## Rules\n\n"
    ++ "- Every functional requirement (FR-XXX) has at least one test case.\n"
    ++ "- Tests are deterministic and independent of execution order.\n"
    ++ "- Bug fixes add a regression test.\n\n"
    ++ "## Related Documents\n\n"
    ++ "- [Setup](./SETUP.md)\n"
    ++ "- [Coding Standards](./CODING-STANDARDS.md)\n"

def category : String := "04-development"

def files : List (String × String) :=
  [("CODING-STANDARDS.md", codingStandards),
    ("GIT-WORKFLOW.md", gitWorkflow),
    ("SETUP.md", setup),
    ("TESTING.md", testing)]

/-- All of them, as a folder of categories. -/
def templates : Node :=
  .folder [(category, .folder (files.map fun (name, text) => (name, .file text.toUTF8)))]

end DocAudit.Bundled
